import Gamewire.Admin.Http

/-! Administration from afar: the request for an action, what of it reaches the server, and what
the response means. -/
namespace Gamewire
set_option autoImplicit false

/-- A server at a URL, with the key to it. -/
structure AdminRemote where
  url : String
  header : String
  secret : String
deriving Repr, DecidableEq

namespace AdminRemote

/-- Slashes at the end of the URL do not count. -/
def ofUrl (url header secret : String) : AdminRemote :=
  ⟨String.ofList (Text.dropTrailing '/' url.toList), header, secret⟩

/-- The method for an action, and its path. -/
def target : AdminAction → String × String
  | .listRooms => ("GET", "/admin/rooms")
  | .shutdown => ("POST", "/admin/shutdown")
  | .shutdownRoom room => ("POST", s!"/admin/rooms/{room.toNat}/shutdown")

/-- The request for an action; its path is the whole URL. The URL is looked at first, then the
name of the header, then the secret. -/
def request (r : AdminRemote) (a : AdminAction) : Except RequestFault HttpRequest :=
  let (method, path) := target a
  match Url.path? (r.url ++ path) with
  | .error e => .error (.url e)
  | .ok _ =>
    if !isHeaderName r.header then .error .headerName
    else if !isHeaderValue r.secret then .error .headerValue
    else .ok ⟨method, r.url ++ path, [(r.header, Text.utf8Bytes r.secret)]⟩

/-- What the server sees of a request: the path alone, and values of headers without the blanks
around them. -/
def received (r : HttpRequest) : HttpRequest :=
  let isBlank (b : UInt8) : Bool := b == 0x20 || b == 0x09
  let trimmed (value : List UInt8) : List UInt8 :=
    ((value.dropWhile isBlank).reverse.dropWhile isBlank).reverse
  { r with
    path := (Url.path? r.path).toOption.getD r.path
    headers := r.headers.map fun (name, value) => (name, trimmed value) }

/-- The meaning of a response. -/
def interpret (r : HttpResponse) : Except AdminFault AdminResponse :=
  if 200 ≤ r.status ∧ r.status < 300 then
    match AdminResponse.parse? r.body with
    | some response => .ok response
    | none => .error (.http .unreadable)
  else if r.status = 401 then .error .auth
  else .error (.status r.status r.body)

end AdminRemote

end Gamewire
