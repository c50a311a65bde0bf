import Gamewire.Admin.Key
import Gamewire.Admin.Response
import Gamewire.Text.Diagnostic
import Gamewire.Text.Percent

/-! The administrators' routes over HTTP. The path is looked at first, then the method, then the
room number in the path, and only then the key; so without the key an answer depends on nothing
but the request. -/
namespace Gamewire
set_option autoImplicit false

structure HttpRequest where
  method : String := "GET"
  path : String
  headers : Headers := []
deriving Repr, DecidableEq

structure HttpResponse where
  status : Nat
  contentType : Option String := none
  /-- The methods that would do. -/
  allow : Option String := none
  body : String := ""
deriving Repr, DecidableEq

namespace HttpResponse

def notFound : HttpResponse := { status := 404 }

def methodNotAllowed (allow : String) : HttpResponse := { status := 405, allow := some allow }

def plain (status : Nat) (text : String) : HttpResponse :=
  { status := status, contentType := some "text/plain; charset=utf-8", body := text }

def ofResult : Except AdminFault AdminResponse → HttpResponse
  | .ok r => { status := 200, contentType := some "application/json", body := r.render }
  | .error e => plain e.httpStatus e.message

def withoutBody (r : HttpResponse) : HttpResponse := { r with body := "" }

end HttpResponse

/-! ## Routes -/

inductive Route where
  | rooms
  | shutdown
  /-- The segment is still percent-encoded. -/
  | roomShutdown (segment : String)
deriving Repr, DecidableEq

namespace Route

/-- The route of a path without its query. -/
def ofPath? (path : List Char) : Option Route :=
  match (path.splitOn '/').map String.ofList with
  | [root, top, leaf] =>
    if root ≠ "" ∨ top ≠ "admin" then none
    else if leaf = "rooms" then some .rooms
    else if leaf = "shutdown" then some .shutdown
    else none
  | [root, top, branch, id, leaf] =>
    if root = "" ∧ top = "admin" ∧ branch = "rooms" ∧ leaf = "shutdown" then
      some (.roomShutdown id)
    else none
  | _ => none

/-- The methods of a route. -/
def methods : Route → List String
  | rooms => ["GET", "HEAD"]
  | shutdown | roomShutdown _ => ["POST"]

/-- The action of a route, or what is wrong with the room number. -/
def action : Route → Except String AdminAction
  | rooms => .ok .listRooms
  | shutdown => .ok .shutdown
  | roomShutdown segment =>
    match Text.percentDecode? segment.toList with
    | none => .error "Invalid URL: Invalid UTF-8 in `id`"
    | some text =>
      match Text.unsignedUpTo? 4294967295 text.toList with
      | some id => .ok (.shutdownRoom (UInt32.ofNat id))
      | none => .error s!"Invalid URL: Cannot parse `{Text.visible text}` to a `u32`"

end Route

namespace HttpRequest

/-- The path up to a query or a fragment. -/
def route? (r : HttpRequest) : Option Route :=
  Route.ofPath? (r.path.toList.takeWhile fun c => c != '?' && c != '#')

end HttpRequest

/-! ## Answers -/

/-- What a request leaves behind: its response, whether it stopped the server, and the lobby. -/
structure HttpOutcome (σ : Type) where
  response : HttpResponse
  stops : Bool := false
  lobby : Lobby σ

namespace HttpOutcome

variable {σ : Type}

/-- Runs an action for a request that may carry the key. -/
def run (g : Game σ) (key : AdminKey) (l : Lobby σ) (headers : Headers) (action : AdminAction) :
    HttpOutcome σ :=
  if key.admits headers then
    let (result, l) := action.execute g l
    ⟨.ofResult result, action == .shutdown && result.isOk, l⟩
  else ⟨.ofResult (.error .auth), false, l⟩

/-- Answers a request. -/
def ofRequest (g : Game σ) (key : AdminKey) (l : Lobby σ) (r : HttpRequest) : HttpOutcome σ :=
  match r.route? with
  | none => ⟨.notFound, false, l⟩
  | some route =>
    if route.methods.contains r.method then
      match route.action with
      | .error text => ⟨.plain 400 text, false, l⟩
      | .ok action =>
        let o := run g key l r.headers action
        if r.method = "HEAD" then { o with response := o.response.withoutBody } else o
    else ⟨.methodNotAllowed (",".intercalate route.methods), false, l⟩

end HttpOutcome

/-- What administrators see of a server: its lobby, and the flag that tells it to wind down. -/
structure AdminSite (σ : Type) where
  lobby : Lobby σ
  stopped : Bool := false

/-- Answers a request. The flag stays up once it is. -/
def AdminSite.serve {σ : Type} (g : Game σ) (key : AdminKey) (r : HttpRequest) (s : AdminSite σ) :
    HttpResponse × AdminSite σ :=
  let o := HttpOutcome.ofRequest g key s.lobby r
  (o.response, { lobby := o.lobby, stopped := s.stopped || o.stops })

end Gamewire
