import Gamewire.Proofs.Admin.Routes
import Gamewire.Proofs.Room.Run

/-! What the key of the administrators keeps out. A request without it changes nothing and learns
nothing: its answer can be told from the request alone. With the key a request does what its action
does, no more. -/
namespace Gamewire
set_option autoImplicit false

/-! ## Headers -/

namespace Headers

/-- The value of a header: the first one under its name, in letters of either case. -/
def HasFirst (header : String) (value : List UInt8) (hs : Headers) : Prop :=
  ∃ before name after, hs = before ++ (name, value) :: after ∧
    normalHeader name = normalHeader header ∧
    ∀ h ∈ before, normalHeader h.1 ≠ normalHeader header

def Carries (header secret : String) (hs : Headers) : Prop :=
  hs.HasFirst header (Text.utf8Bytes secret)

/-- The header is missing, or its value is another one than the secret. -/
inductive Lacks (header secret : String) (hs : Headers) : Prop where
  | absent (hnames : ∀ h ∈ hs, normalHeader h.1 ≠ normalHeader header)
  | differs (value : List UInt8) (hfirst : hs.HasFirst header value)
      (hvalue : value ≠ Text.utf8Bytes secret)

variable {header secret : String} {hs : Headers} {value : List UInt8}

end Headers

namespace AdminKey

variable {header secret : String} {key : AdminKey} {hs : Headers}

end AdminKey

/-! ## One request -/

namespace HttpRequest

/-- An answer, without its body where only the head was asked for. -/
def present (r : HttpRequest) (response : HttpResponse) : HttpResponse :=
  if r.method = "HEAD" then response.withoutBody else response

end HttpRequest

namespace AdminSite

variable {σ : Type} {g : Game σ} {key : AdminKey} {r : HttpRequest} {a : AdminAction}
  {response : HttpResponse} {header secret : String}

/-- What can happen to a server: a request over HTTP, or anything else that the lobby can do. -/
inductive Event where
  | request (r : HttpRequest)
  | operation (op : Operation)

def after (g : Game σ) (key : AdminKey) (s : AdminSite σ) : Event → AdminSite σ
  | .request r => (s.serve g key r).2
  | .operation op => { s with lobby := s.lobby.perform g op }

def run (g : Game σ) (key : AdminKey) (s : AdminSite σ) (events : List Event) : AdminSite σ :=
  events.foldl (after g key) s

theorem run_concat (g : Game σ) (key : AdminKey) (s : AdminSite σ) (events : List Event)
    (e : Event) : s.run g key (events ++ [e]) = (s.run g key events).after g key e := by
  rw [run, List.foldl_append]
  rfl

end AdminSite

end Gamewire
