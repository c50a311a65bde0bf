import Gamewire.Proofs.Room.Run
import Gamewire.Server.Machine
import Mathlib

/-! Everything that can happen to a server, as data, so that one can speak of all its runs. Each event
runs to completion, and then the clients look at what reached them. -/
namespace Gamewire
set_option autoImplicit false

/-- What clients, administrators and the clock do to a server. Clients are told apart by number. -/
inductive Event where
  | connect (faults : LineFaults)
  | send (number : Nat) (bytes : List UInt8)
  /-- The client sends nothing more. -/
  | close (number : Nat)
  /-- The client goes away. -/
  | leave (number : Nat)
  | advance (ms : Nat)
  | shutdownRoom (room : RoomId) (reason : String)
  | shutdown (reason : String)
  | stop
deriving DecidableEq

namespace Server

variable {σ : Type} {g : Game σ} {s : Server σ} {c : Connection} {n : Nat}

def perform (g : Game σ) (s : Server σ) : Event → Server σ
  | .connect faults => (s.connect g faults).2
  | .send number bytes => (s.hear g number bytes).2
  | .close number => (s.hearEnd g number).2
  | .leave number => (s.lose g number).2
  | .advance ms => s.advance g ms
  | .shutdownRoom room reason => (s.shutdownRoom g room reason).2
  | .shutdown reason => (s.shutdown g reason).2
  | .stop => s.stop g

/-- The clients take what reached them. -/
def look (s : Server σ) : Server σ := s.collect.2

def after (g : Game σ) (s : Server σ) (e : Event) : Server σ := (s.perform g e).look

def run (g : Game σ) (s : Server σ) (events : List Event) : Server σ := events.foldl (after g) s

/-- What reached a client since it last looked. -/
def arrivals (s : Server σ) (n : Nat) : List Arrival :=
  ((s.connection? n).map (·.line.arrivals)).getD []

/-- Everything that reaches a client in a run. -/
def stream (g : Game σ) (n : Nat) : Server σ → List Event → List Arrival
  | _, [] => []
  | s, e :: events => (s.perform g e).arrivals n ++ stream g n (s.after g e) events

theorem run_concat (g : Game σ) (s : Server σ) (events : List Event) (e : Event) :
    s.run g (events ++ [e]) = (s.run g events).after g e := by
  rw [run, run, List.foldl_append]
  rfl

theorem stream_concat (g : Game σ) (n : Nat) (s : Server σ) (events : List Event) (e : Event) :
    s.stream g n (events ++ [e]) =
      s.stream g n events ++ ((s.run g events).perform g e).arrivals n := by
  induction events generalizing s with
  | nil => simp [stream, run]
  | cons first events ih =>
    have hrun : s.run g (first :: events) = (s.after g first).run g events := rfl
    rw [List.cons_append, stream, ih, stream, hrun, List.append_assoc]

/-! ## Connections by number -/

/-- Connections are told apart by their numbers. -/
structure Numbered (s : Server σ) : Prop where
  nodup : (s.connections.map (·.number)).Nodup
  lt : ∀ c ∈ s.connections, c.number < s.nextConn

theorem Numbered.eq_of_number (h : Numbered s) {c' : Connection} (hc : c ∈ s.connections)
    (hc' : c' ∈ s.connections) (hnumber : c.number = c'.number) : c = c' :=
  List.inj_on_of_nodup_map h.nodup hc hc' hnumber

theorem mem_of_connection? (h : s.connection? n = some c) : c ∈ s.connections ∧ c.number = n := by
  unfold connection? at h
  have hnumber := List.find?_some h
  exact ⟨List.mem_of_find?_eq_some h, beq_iff_eq.mp hnumber⟩

theorem Numbered.connection?_iff (h : Numbered s) :
    s.connection? n = some c ↔ c ∈ s.connections ∧ c.number = n := by
  refine ⟨mem_of_connection?, ?_⟩
  rintro ⟨hc, rfl⟩
  cases hfind : s.connection? c.number with
  | none => exact absurd (beq_self_eq_true c.number) (List.find?_eq_none.mp hfind c hc)
  | some c' =>
    obtain ⟨hc', hnumber⟩ := mem_of_connection? hfind
    rw [h.eq_of_number hc' hc hnumber]

theorem connection?_eq_none : s.connection? n = none ↔ n ∉ s.connections.map (·.number) := by
  unfold connection?
  rw [List.find?_eq_none, List.mem_map]
  constructor
  · rintro h ⟨c, hc, rfl⟩
    exact h c hc (beq_self_eq_true c.number)
  · exact fun h c hc hnumber => h ⟨c, hc, beq_iff_eq.mp hnumber⟩

theorem arrivals_of_connection? (h : s.connection? n = some c) : s.arrivals n = c.line.arrivals := by
  rw [arrivals, h]
  rfl

theorem arrivals_of_none (h : s.connection? n = none) : s.arrivals n = [] := by
  rw [arrivals, h]
  rfl

theorem mem_setConnection {x : Connection} : x ∈ (s.setConnection c).connections ↔
    (x ∈ s.connections ∧ x.number ≠ c.number) ∨
      (x = c ∧ ∃ y ∈ s.connections, y.number = c.number) := by
  unfold setConnection
  simp only [List.mem_map]
  constructor
  · rintro ⟨y, hy, rfl⟩
    split
    · rename_i hnumber
      exact .inr ⟨rfl, y, hy, hnumber⟩
    · rename_i hnumber
      exact .inl ⟨hy, hnumber⟩
  · rintro (⟨hx, hne⟩ | ⟨rfl, y, hy, hnumber⟩)
    · exact ⟨x, hx, if_neg hne⟩
    · exact ⟨y, hy, if_pos hnumber⟩

theorem setConnection_numbers (c : Connection) (s : Server σ) :
    (s.setConnection c).connections.map (·.number) = s.connections.map (·.number) := by
  rw [setConnection, List.map_map]
  refine List.map_congr_left fun x _ => ?_
  simp only [Function.comp_apply]
  split
  · rename_i hnumber
    exact hnumber.symm
  · rfl

theorem Numbered.setConnection (h : Numbered s) (c : Connection) : Numbered (s.setConnection c) := by
  have hnumbers := setConnection_numbers c s
  refine ⟨hnumbers ▸ h.nodup, fun x hx => ?_⟩
  have hmem : x.number ∈ s.connections.map (·.number) := hnumbers ▸ List.mem_map_of_mem hx
  obtain ⟨y, hy, hnumber⟩ := List.mem_map.mp hmem
  have hlt : y.number < s.nextConn := h.lt y hy
  rw [← show y.number = x.number from hnumber]
  exact hlt

theorem Numbered.nextConn_not_mem (h : Numbered s) :
    s.nextConn ∉ s.connections.map (·.number) := by
  intro hmem
  obtain ⟨c, hc, hnumber⟩ := List.mem_map.mp hmem
  exact Nat.ne_of_lt (h.lt c hc) hnumber

/-- A connection with the next number is told apart from all that were there before. -/
theorem Numbered.connect (h : Numbered s) (hnumber : c.number = s.nextConn) :
    Numbered { s with connections := s.connections ++ [c], nextConn := s.nextConn + 1 } := by
  refine ⟨?_, fun x hx => ?_⟩
  · rw [List.map_append, List.nodup_append]
    refine ⟨h.nodup, List.nodup_singleton _, fun n hn m hm => ?_⟩
    rw [show m = s.nextConn from (List.mem_singleton.mp hm).trans hnumber]
    exact ne_of_mem_of_not_mem hn h.nextConn_not_mem
  · obtain hx | hx := List.mem_append.mp hx
    · exact Nat.lt_succ_of_lt (h.lt x hx)
    · rw [List.mem_singleton.mp hx, hnumber]
      exact Nat.lt_succ_self _

theorem look_numbers (s : Server σ) :
    s.look.connections.map (·.number) = s.connections.map (·.number) := by
  simp only [look, collect, List.map_map]
  rfl

theorem Numbered.look (h : Numbered s) : Numbered s.look := by
  refine ⟨look_numbers s ▸ h.nodup, fun x hx => ?_⟩
  obtain ⟨y, hy, rfl⟩ := List.mem_map.mp hx
  exact h.lt y hy

theorem mem_look {x : Connection} : x ∈ s.look.connections ↔
    ∃ c ∈ s.connections, x = { c with line := { c.line with arrivals := [] } } := by
  simp only [look, collect, List.mem_map, eq_comm]

/-! ## What each stage keeps -/

theorem repeat_keeps {α : Type} {P : α → Prop} {f : α → α} (hf : ∀ a, P a → P (f a)) (k : Nat)
    {a : α} (h : P a) : P (Nat.repeat f k a) := by
  induction k with
  | zero => exact h
  | succ k ih => exact hf _ ih

section

variable {P : Server σ → Prop}

/-- What every writer keeps is kept when all of them write. -/
theorem settle_keeps (hwrite : ∀ n s, P s → P (s.write g n)) (h : P s) : P (s.settle g) := by
  refine repeat_keeps (fun s h => ?_) _ h
  refine List.foldlRecOn _ _ (motive := P) h fun s h n _ => ?_
  exact repeat_keeps (hwrite n) _ h

theorem proceedFully_keeps (hproceed : ∀ n s, P s → P (s.proceed g n)) (n : Nat) (h : P s) :
    P (s.proceedFully g n) :=
  hproceed n _ (hproceed n _ (hproceed n _ h))

theorem wake_keeps (hproceed : ∀ n s, P s → P (s.proceed g n))
    (hwrite : ∀ n s, P s → P (s.write g n)) (n : Nat) (h : P s) : P (s.wake g n) :=
  settle_keeps hwrite (proceedFully_keeps hproceed n h)

theorem advance_keeps (hproceed : ∀ n s, P s → P (s.proceed g n))
    (hwrite : ∀ n s, P s → P (s.write g n)) (ms : Nat)
    (h : P { s with lobby := s.lobby.advance g ms }) : P (s.advance g ms) := by
  refine settle_keeps hwrite ?_
  refine List.foldlRecOn _ _ (motive := P) h fun s h n _ => ?_
  exact proceedFully_keeps hproceed n h

end

end Server

end Gamewire
