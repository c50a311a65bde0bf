import Gamewire.Admin.Remote
import Gamewire.Proofs.Text.Path
import Gamewire.Proofs.Text.Words
import Mathlib.Data.List.TakeWhile

/-! What a request over HTTP asks for. Path, method and room number settle that alone; the key is
looked at only for a request that asks for something. -/
namespace Gamewire
set_option autoImplicit false

/-! ## Paths -/

namespace Route

variable {path : List Char} {route : Route} {segment : String}

end Route

/-! ## Requests -/

namespace HttpRequest

/-- The path up to a query or a fragment. -/
def plainPath (r : HttpRequest) : List Char :=
  r.path.toList.takeWhile fun c => c != '?' && c != '#'

/-- The requests of the three routes, with what they ask for. The room number may be percent-encoded,
and leading zeros and a plus sign do not count. -/
inductive Asks (r : HttpRequest) : AdminAction → Prop where
  | listRooms (hpath : r.plainPath = "/admin/rooms".toList)
      (hmethod : r.method = "GET" ∨ r.method = "HEAD") : Asks r .listRooms
  | shutdown (hpath : r.plainPath = "/admin/shutdown".toList) (hmethod : r.method = "POST") :
      Asks r .shutdown
  | shutdownRoom (segment text : String) (n : Nat) (hsegment : '/' ∉ segment.toList)
      (hpath : r.plainPath = "/admin/rooms/".toList ++ segment.toList ++ "/shutdown".toList)
      (hmethod : r.method = "POST") (htext : Text.percentDecode? segment.toList = some text)
      (hnumber : Text.unsignedUpTo? 4294967295 text.toList = some n) :
      Asks r (.shutdownRoom (UInt32.ofNat n))

/-- What a request asks for, or the answer to one that asks for nothing. -/
def resolve (r : HttpRequest) : Except HttpResponse AdminAction :=
  match r.route? with
  | none => .error .notFound
  | some route =>
    if route.methods.contains r.method then
      match route.action with
      | .error text => .error (.plain 400 text)
      | .ok a => .ok a
    else .error (.methodNotAllowed (",".intercalate route.methods))

variable {r : HttpRequest} {a : AdminAction}

end HttpRequest

end Gamewire
