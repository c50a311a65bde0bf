import Gamewire.Admin.Response
import Gamewire.Proofs.Json.RoundTrip

/-! An administrator's answer is read back from its text, and from every other text of the same content:
the members of an object may stand in any order and among unknown ones, and a snapshot may be the
array of its four members. -/
namespace Gamewire.AdminResponse
set_option autoImplicit false

/-! ## Spellings -/

/-- An object has the known entries, in any order and among entries under other keys. -/
def Holds (known entries : List (String × Json.Value)) : Prop :=
  ∃ others, entries.Perm (known ++ others) ∧ ∀ e ∈ others, ∀ k ∈ known, e.1 ≠ k.1

/-- The members of a snapshot, with their keys. -/
def snapshotEntries (s : RoomSnapshot) : List (String × Json.Value) :=
  [("id", .integer s.id.toNat), ("members", .integer s.members), ("capacity", .integer s.capacity),
    ("state", .text s.state.name)]

inductive SpellsSnapshot (s : RoomSnapshot) : Json.Value → Prop
  | keyed {entries : List (String × Json.Value)} (h : Holds (snapshotEntries s) entries) :
      SpellsSnapshot s (.object entries)
  | listed : SpellsSnapshot s (.array ((snapshotEntries s).map Prod.snd))

/-- The values that say the same as an answer's own. -/
inductive Spells : AdminResponse → Json.Value → Prop
  | rooms {list : List RoomSnapshot} {values : List Json.Value} {entries : List (String × Json.Value)}
      (hlist : List.Forall₂ SpellsSnapshot list values)
      (h : Holds [("result", .text "rooms"), ("rooms", .array values)] entries) :
      Spells (.rooms list) (.object entries)
  | shutRoom {id : RoomId} {entries : List (String × Json.Value)}
      (h : Holds [("result", .text "shut_down"), ("room", .integer id.toNat)] entries) :
      Spells (.shutDown (some id)) (.object entries)
  | shutServer {entries : List (String × Json.Value)}
      (h : Holds [("result", .text "shut_down"), ("room", .null)] entries) :
      Spells (.shutDown none) (.object entries)

/-- The counts of a snapshot have 64 bits. -/
def Counted (s : RoomSnapshot) : Prop := s.members ≤ maxCount ∧ s.capacity ≤ maxCount

/-- The snapshots of an answer. -/
def snapshots : AdminResponse → List RoomSnapshot
  | .rooms list => list
  | .shutDown _ => []

variable {known entries : List (String × Json.Value)} {key : String} {v : Json.Value}
  {s : RoomSnapshot} {r : AdminResponse}

theorem holds_self (known : List (String × Json.Value)) : Holds known known :=
  ⟨[], by rw [List.append_nil], fun _ h => absurd h List.not_mem_nil⟩

/-- The answer's own value is one of its spellings. -/
theorem spells_toJson (r : AdminResponse) : Spells r r.toJson := by
  cases r with
  | rooms list =>
    refine .rooms ?_ (holds_self _)
    rw [List.forall₂_map_right_iff, List.forall₂_same]
    exact fun s _ => .keyed (holds_self _)
  | shutDown room =>
    cases room with
    | none => exact .shutServer (holds_self _)
    | some id => exact .shutRoom (holds_self _)

/-! ## Reading them -/

/-- A known key is found, and once only. -/
theorem uniqueKey?_of_holds (h : Holds known entries) (hkey : known.filter (·.1 == key) = [(key, v)]) :
    Json.uniqueKey? key entries = some (some v) := by
  obtain ⟨others, hperm, hothers⟩ := h
  have hknown : (key, v) ∈ known := (List.mem_filter.mp (hkey ▸ List.mem_singleton_self _)).1
  have hnone : others.filter (·.1 == key) = [] := by
    rw [List.filter_eq_nil_iff]
    intro e he heq
    exact hothers e he _ hknown (beq_iff_eq.mp heq)
  have hfilter := hperm.filter (·.1 == key)
  rw [List.filter_append, hkey, hnone, List.append_nil, List.perm_singleton] at hfilter
  rw [Json.uniqueKey?, hfilter]

theorem asNat?_integer {max n : Nat} (h : n ≤ max) : (Json.Value.integer n).asNat? max = some n := by
  rw [Json.Value.asNat?, if_pos ⟨Int.natCast_nonneg n, Int.ofNat_le.mpr h⟩, Int.toNat_natCast]

theorem readId_toNat (id : RoomId) : readId (.integer id.toNat) = some id := by
  have hid := id.toNat_lt
  rw [readId, asNat?_integer (by omega), Option.map_some, UInt32.ofNat_toNat]

theorem readState_name (state : RoomState) : readState (.text state.name) = some state := by
  cases state <;> rfl

theorem snapshotOf?_members (h : Counted s) :
    snapshotOf? (some (.integer s.id.toNat)) (some (.integer s.members)) (some (.integer s.capacity))
      (some (.text s.state.name)) = some s := by
  simp only [snapshotOf?, Option.bind_some, readId_toNat, asNat?_integer h.1, asNat?_integer h.2,
    readState_name, Option.bind_eq_bind, Option.pure_def]

theorem readSnapshot_of_spells (h : Counted s) (hs : SpellsSnapshot s v) : readSnapshot v = some s := by
  cases hs with
  | listed => exact snapshotOf?_members h
  | keyed hholds =>
    rw [readSnapshot, uniqueKey?_of_holds hholds rfl, uniqueKey?_of_holds hholds rfl,
      uniqueKey?_of_holds hholds rfl, uniqueKey?_of_holds hholds rfl]
    exact snapshotOf?_members h

theorem readRooms_of_spells {list : List RoomSnapshot} {values : List Json.Value}
    (h : ∀ s ∈ list, Counted s) (hlist : List.Forall₂ SpellsSnapshot list values) :
    readRooms (.array values) = some (.rooms list) := by
  have hread : values.mapM readSnapshot = some list := by
    induction hlist with
    | nil => rfl
    | cons hs _ ih =>
      obtain ⟨hhead, htail⟩ := List.forall_mem_cons.mp h
      rw [List.mapM_cons, readSnapshot_of_spells hhead hs, ih htail]
      rfl
  rw [readRooms, hread]
  rfl

theorem ofJson?_of_spells (h : ∀ s ∈ r.snapshots, Counted s) (hv : Spells r v) : ofJson? v = some r := by
  cases hv with
  | rooms hlist hholds =>
    rw [ofJson?, uniqueKey?_of_holds hholds rfl]
    simp only [Option.bind_eq_bind, Option.bind_some]
    rw [uniqueKey?_of_holds hholds rfl]
    exact readRooms_of_spells h hlist
  | shutRoom hholds =>
    rw [ofJson?, uniqueKey?_of_holds hholds rfl]
    simp only [Option.bind_eq_bind, Option.bind_some]
    rw [uniqueKey?_of_holds hholds rfl]
    simp only [Option.bind_some, Option.getD_some, readShutDown, Json.Value.nullable, readId_toNat,
      Option.map_some]
  | shutServer hholds =>
    rw [ofJson?, uniqueKey?_of_holds hholds rfl]
    simp only [Option.bind_eq_bind, Option.bind_some]
    rw [uniqueKey?_of_holds hholds rfl]
    rfl

/-! ## Texts -/

theorem fits_count {d n : Nat} (h : n ≤ maxCount) : Json.Fits d (.integer n) := by
  refine .integer ?_ (Int.ofNat_lt.mpr (h.trans_lt (by decide)))
  exact le_trans (by decide) (Int.natCast_nonneg n)

theorem fits_ofSnapshot {d : Nat} (h : Counted s) : Json.Fits (d + 1) (ofSnapshot s) := by
  have hid : s.id.toNat ≤ maxCount := s.id.toNat_lt.le.trans (by decide)
  simp [ofSnapshot, fits_count hid, fits_count h.1, fits_count h.2]

theorem fits_toJson {d : Nat} (h : ∀ s ∈ r.snapshots, Counted s) : Json.Fits (d + 3) r.toJson := by
  cases r with
  | rooms list =>
    have hlist : ∀ s ∈ list, Json.Fits (d + 1) (ofSnapshot s) := fun s hs => fits_ofSnapshot (h s hs)
    simpa [toJson] using hlist
  | shutDown room =>
    cases room with
    | none => simp [toJson]
    | some id =>
      have hid : id.toNat ≤ maxCount := id.toNat_lt.le.trans (by decide)
      simp [toJson, fits_count hid]

theorem parse?_of_spells {text : String} (h : ∀ s ∈ r.snapshots, Counted s)
    (htext : Json.parse? text = some v) (hv : Spells r v) : parse? text = some r := by
  rw [parse?, htext, Option.bind_some]
  exact ofJson?_of_spells h hv

/-- An answer is read from its compact text, from the compact text of each of its spellings, and from
every other text of one of them. -/
theorem spellings_read_back (h : ∀ s ∈ r.snapshots, Counted s) :
    parse? r.render = some r ∧
      ∀ v, Spells r v → (Json.Fits (Json.nestingLimit - 1) v → parse? v.render = some r) ∧
        ∀ text, Json.parse? text = some v → parse? text = some r := by
  have hread : ∀ v, Spells r v → Json.Fits (Json.nestingLimit - 1) v → parse? v.render = some r :=
    fun v hv hfits => parse?_of_spells h (Json.parse?_render hfits) hv
  exact ⟨hread _ (spells_toJson r) (fits_toJson h),
    fun v hv => ⟨hread v hv, fun text htext => parse?_of_spells h htext hv⟩⟩

def farRooms : AdminResponse :=
  .rooms [⟨4294967295, 18446744073709551615, 0, .full⟩, ⟨0, 0, 18446744073709551615, .closing⟩]

/-- The second snapshot's members the other way round, and an unknown one. -/
def farEntries : List (String × Json.Value) :=
  [("state", .text "closing"), ("capacity", .integer 18446744073709551615), ("members", .integer 0),
    ("id", .integer 0), ("note", .null)]

/-- The first snapshot as an array, an unknown member, and the kind of the answer at the end. -/
def farSpelling : Json.Value :=
  .object [("rooms", .array
      [.array [.integer 4294967295, .integer 18446744073709551615, .integer 0, .text "full"],
        .object farEntries]),
    ("room", .array [.null]), ("result", .text "rooms")]

theorem spells_farSpelling : Spells farRooms farSpelling := by
  have hturned : farEntries = (snapshotEntries ⟨0, 0, 18446744073709551615, .closing⟩).reverse ++
      [("note", .null)] := rfl
  have hentries : Holds (snapshotEntries ⟨0, 0, 18446744073709551615, .closing⟩) farEntries := by
    rw [hturned]
    exact ⟨[("note", .null)], (List.reverse_perm _).append_right _, by simp [snapshotEntries]⟩
  refine .rooms (.cons .listed (.cons (.keyed hentries) .nil)) ⟨[("room", .array [.null])], ?_, by simp⟩
  exact @List.perm_append_comm _ [_, _] [_]

theorem spellings_read_back_farRooms : (∀ s ∈ farRooms.snapshots, Counted s) ∧
    parse? farRooms.render = some farRooms ∧
    Spells farRooms farSpelling ∧ Json.Fits (Json.nestingLimit - 1) farSpelling ∧
    farSpelling.render = "\x7b\"rooms\":[[4294967295,18446744073709551615,0,\"full\"]," ++
      "\x7b\"state\":\"closing\",\"capacity\":18446744073709551615,\"members\":0,\"id\":0," ++
      "\"note\":null\x7d],\"room\":[null],\"result\":\"rooms\"\x7d" ∧
    parse? farSpelling.render = some farRooms := by
  have hcounted : ∀ s ∈ farRooms.snapshots, Counted s := by
    simp [farRooms, snapshots, Counted, maxCount]
  have hfits : Json.Fits (Json.nestingLimit - 1) farSpelling := by
    simp [Json.nestingLimit, farSpelling, farEntries, Json.fits_integer_iff]
  obtain ⟨hown, hspelled⟩ := spellings_read_back hcounted
  obtain ⟨hrender, -⟩ := hspelled farSpelling spells_farSpelling
  exact ⟨hcounted, hown, spells_farSpelling, hfits, by decide +kernel, hrender hfits⟩

end Gamewire.AdminResponse
