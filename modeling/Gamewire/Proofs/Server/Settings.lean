import Gamewire.Proofs.Files.Tree
import Gamewire.Proofs.Toml.Range
import Gamewire.Proofs.Toml.Tree
import Gamewire.Server.Config
import Mathlib

/-! Settings come back from the file that they are saved to, unless one of their numbers is beyond the
format, which keeps them from being written. A file may leave out any of the keys: the settings under them
are the default ones then, and those under the others are as the file has them. -/
namespace Gamewire.ServerConfig
set_option autoImplicit false

open Toml (Atom withDefault)

/-! ## Keys -/

/-- The settings, in the order in which they are written. -/
inductive Setting where
  | host
  | port
  | adminPort
  | maxRooms
  | maxMembers
  | gracePeriod
  | adminHeader
  | adminSecret
  | outboundBuffer
  | sendTimeout
  | joinTimeout
  | protocolFile
deriving DecidableEq

namespace Setting

def all : List Setting :=
  [host, port, adminPort, maxRooms, maxMembers, gracePeriod, adminHeader, adminSecret, outboundBuffer,
    sendTimeout, joinTimeout, protocolFile]

def key : Setting → String
  | host => "host"
  | port => "port"
  | adminPort => "admin_port"
  | maxRooms => "max_rooms"
  | maxMembers => "max_conn_per_room"
  | gracePeriod => "grace_period_secs"
  | adminHeader => "admin_header"
  | adminSecret => "admin_secret"
  | outboundBuffer => "outbound_buffer"
  | sendTimeout => "send_timeout_secs"
  | joinTimeout => "join_timeout_secs"
  | protocolFile => "protocol_file"

/-- What a configuration has under the key. -/
def atom (c : ServerConfig) : Setting → Atom
  | host => .text c.host
  | port => .integer c.port.toNat
  | adminPort => .integer c.adminPort.toNat
  | maxRooms => .integer c.maxRooms
  | maxMembers => .integer c.maxMembers
  | gracePeriod => .integer c.gracePeriod
  | adminHeader => .text c.adminHeader
  | adminSecret => .text c.adminSecret
  | outboundBuffer => .integer c.outboundBuffer
  | sendTimeout => .integer c.sendTimeout
  | joinTimeout => .integer c.joinTimeout
  | protocolFile => .text c.protocolFile

/-- A number that does not fit 64 bits with a sign. -/
def TooLarge (c : ServerConfig) (s : Setting) : Prop := ∃ n, s.atom c = .integer n ∧ 2 ^ 63 - 1 < n

def line (c : ServerConfig) (s : Setting) : Toml.Line := ⟨s.key, s.atom c⟩

theorem mem_all (s : Setting) : s ∈ all := by
  cases s <;> decide

theorem keys_nodup : (all.map key).Nodup := by
  decide

theorem key_injective : Function.Injective key :=
  fun s t h => List.inj_on_of_nodup_map keys_nodup s.mem_all t.mem_all h

theorem bareKey_key (s : Setting) : Toml.BareKey s.key := by
  cases s <;> decide

theorem nonneg_of_atom {c : ServerConfig} {s : Setting} {n : Int} (h : s.atom c = .integer n) :
    0 ≤ n := by
  cases s <;> cases h <;> exact Int.natCast_nonneg _

theorem fits_iff {c : ServerConfig} {s : Setting} : (s.atom c).Fits ↔ ¬ s.TooLarge c := by
  rw [TooLarge]
  cases hatom : s.atom c with
  | integer n =>
    have hn := nonneg_of_atom hatom
    rw [Atom.Fits, Toml.minInteger, Toml.maxInteger]
    simp only [Atom.integer.injEq, exists_eq_left', not_lt]
    omega
  | text t => simp [Atom.Fits]
  | boolean b => simp [Atom.Fits]
  | emptyArray => simp [Atom.Fits]

end Setting

variable {c : ServerConfig} {settings : List Setting} {source : String}

/-! ## Files -/

/-- The file with some of the settings, one on each line. -/
def fileWith (settings : List Setting) (c : ServerConfig) : String :=
  String.ofList (Toml.writeSections [⟨[], settings.map (·.line c)⟩])

/-- Entries of a document are those of some settings, in any order. -/
def Gives (entries : List (String × Toml.Value)) (settings : List Setting) (c : ServerConfig) : Prop :=
  ∀ e, e ∈ entries ↔ ∃ s ∈ settings, e = (s.key, (s.atom c).value)

/-- A file, however it is written, has some of the settings and nothing else. -/
def Holds (source : String) (settings : List Setting) (c : ServerConfig) : Prop :=
  ∃ entries, Toml.parse? source = some (.table entries) ∧ Gives entries settings c

/-- The default settings, with some of them replaced. -/
def defaultsWith (settings : List Setting) (c : ServerConfig) : ServerConfig :=
  let d : ServerConfig := {}
  { host := if .host ∈ settings then c.host else d.host
    port := if .port ∈ settings then c.port else d.port
    adminPort := if .adminPort ∈ settings then c.adminPort else d.adminPort
    maxRooms := if .maxRooms ∈ settings then c.maxRooms else d.maxRooms
    maxMembers := if .maxMembers ∈ settings then c.maxMembers else d.maxMembers
    gracePeriod := if .gracePeriod ∈ settings then c.gracePeriod else d.gracePeriod
    adminHeader := if .adminHeader ∈ settings then c.adminHeader else d.adminHeader
    adminSecret := if .adminSecret ∈ settings then c.adminSecret else d.adminSecret
    outboundBuffer := if .outboundBuffer ∈ settings then c.outboundBuffer else d.outboundBuffer
    sendTimeout := if .sendTimeout ∈ settings then c.sendTimeout else d.sendTimeout
    joinTimeout := if .joinTimeout ∈ settings then c.joinTimeout else d.joinTimeout
    protocolFile := if .protocolFile ∈ settings then c.protocolFile else d.protocolFile }

theorem defaultsWith_all (c : ServerConfig) : c.defaultsWith Setting.all = c := by
  simp [defaultsWith, Setting.mem_all]

/-! ## Reading -/

section Reading

variable {entries : List (String × Toml.Value)}

theorem Gives.lookup (h : Gives entries settings c) (s : Setting) :
    entries.lookup s.key = if s ∈ settings then some (s.atom c).value else none := by
  split
  · rename_i hs
    refine Toml.lookup_of_mem ((h _).mpr ⟨s, hs, rfl⟩) fun w hw => ?_
    obtain ⟨s', -, heq⟩ := (h _).mp hw
    obtain ⟨hkey, rfl⟩ := Prod.mk.inj heq
    rw [Setting.key_injective hkey]
  · rename_i hs
    rw [List.lookup_eq_none_iff]
    intro e he
    obtain ⟨s', hs', rfl⟩ := (h _).mp he
    rw [bne_iff_ne]
    intro hkey
    exact hs (Setting.key_injective hkey ▸ hs')

theorem Gives.not_tooLarge (h : Gives entries settings c)
    (hread : Toml.parse? source = some (.table entries)) : ∀ s ∈ settings, ¬ s.TooLarge c := by
  intro s hs
  have hrange := Toml.parse?_inRange hread _ ((h _).mpr ⟨s, hs, rfl⟩)
  exact Setting.fits_iff.mp ((Toml.Atom.inRange_value _).mp hrange)

/-- A setting is read where the file has it, and is the default elsewhere. -/
theorem Gives.read {α : Type} (h : Gives entries settings c) {read : Toml.Value → Option α} {a : α}
    (default : α) (s : Setting) (hread : s ∈ settings → read (s.atom c).value = some a) :
    withDefault default read (entries.lookup s.key) = some (if s ∈ settings then a else default) := by
  rw [h.lookup]
  split
  · rename_i hs
    exact hread hs
  · rfl

theorem Gives.text (h : Gives entries settings c) {t : String} (default : String) (s : Setting)
    (hs : s.atom c = .text t) : withDefault default Toml.Value.asText? (entries.lookup s.key) =
      some (if s ∈ settings then t else default) := by
  refine h.read default s fun _ => ?_
  rw [hs]
  rfl

theorem Gives.port (h : Gives entries settings c) {n : UInt16} (default : UInt16) (s : Setting)
    (hs : s.atom c = .integer n.toNat) :
    withDefault default (fun v => (v.asNat? 65535).map UInt16.ofNat) (entries.lookup s.key) =
      some (if s ∈ settings then n else default) := by
  refine h.read default s fun _ => ?_
  rw [hs, Atom.value, Toml.Value.asNat?_integer (Nat.le_of_lt_succ n.toNat_lt), Option.map_some,
    UInt16.ofNat_toNat]

theorem Gives.count (h : Gives entries settings c) (hfit : ∀ s ∈ settings, ¬ s.TooLarge c) {n : Nat}
    (default : Nat) (s : Setting) (hs : s.atom c = .integer n) :
    withDefault default (Toml.Value.asNat? Toml.maxInteger.toNat) (entries.lookup s.key) =
      some (if s ∈ settings then n else default) := by
  refine h.read default s fun hmem => ?_
  have hfits := Setting.fits_iff.mpr (hfit s hmem)
  rw [hs] at hfits ⊢
  exact Toml.Value.asNat?_integer ((Int.le_toNat (by decide)).mpr hfits.2)

theorem ofValue?_of_gives (h : Gives entries settings c) (hfit : ∀ s ∈ settings, ¬ s.TooLarge c) :
    ofValue? (.table entries) = some (c.defaultsWith settings) := by
  -- one step for each setting that the reader asks for
  refine Option.bind_eq_some_iff.mpr ⟨_, h.text _ .host rfl, ?_⟩
  refine Option.bind_eq_some_iff.mpr ⟨_, h.port _ .port rfl, ?_⟩
  refine Option.bind_eq_some_iff.mpr ⟨_, h.port _ .adminPort rfl, ?_⟩
  refine Option.bind_eq_some_iff.mpr ⟨_, h.count hfit _ .maxRooms rfl, ?_⟩
  refine Option.bind_eq_some_iff.mpr ⟨_, h.count hfit _ .maxMembers rfl, ?_⟩
  refine Option.bind_eq_some_iff.mpr ⟨_, h.count hfit _ .gracePeriod rfl, ?_⟩
  refine Option.bind_eq_some_iff.mpr ⟨_, h.text _ .adminHeader rfl, ?_⟩
  refine Option.bind_eq_some_iff.mpr ⟨_, h.text _ .adminSecret rfl, ?_⟩
  refine Option.bind_eq_some_iff.mpr ⟨_, h.count hfit _ .outboundBuffer rfl, ?_⟩
  refine Option.bind_eq_some_iff.mpr ⟨_, h.count hfit _ .sendTimeout rfl, ?_⟩
  refine Option.bind_eq_some_iff.mpr ⟨_, h.count hfit _ .joinTimeout rfl, ?_⟩
  exact Option.bind_eq_some_iff.mpr ⟨_, h.text _ .protocolFile rfl, rfl⟩

theorem Holds.parse (h : Holds source settings c) :
    (∀ s ∈ settings, ¬ s.TooLarge c) ∧ ServerConfig.parse source = .ok (c.defaultsWith settings) := by
  obtain ⟨entries, hread, hgives⟩ := h
  have hfit := hgives.not_tooLarge hread
  refine ⟨hfit, ?_⟩
  rw [ServerConfig.parse, hread, Option.bind_some, ofValue?_of_gives hgives hfit]

end Reading

/-! ## Writing -/

theorem holds_fileWith (hnodup : settings.Nodup) (hfit : ∀ s ∈ settings, ¬ s.TooLarge c) :
    Holds (c.fileWith settings) settings c := by
  have hreadable : ∀ l ∈ settings.map (·.line c), l.Readable := by
    intro l hl
    obtain ⟨s, hs, rfl⟩ := List.mem_map.mp hl
    exact ⟨s.bareKey_key, Setting.fits_iff.mpr (hfit s hs)⟩
  have hkeys : ((settings.map (·.line c)).map (·.key)).Nodup := by
    rw [List.map_map]
    exact hnodup.map Setting.key_injective
  refine ⟨_, Toml.parse?_lines hreadable hkeys, fun e => ?_⟩
  simp only [List.map_map, List.mem_map, eq_comm]
  rfl

/-- A number of the settings is beyond the format. -/
def TooLarge (c : ServerConfig) : Prop := ∃ s : Setting, s.TooLarge c

theorem Setting.number_cases {s : Setting} {n : Int} (h : s.atom c = .integer n) :
    n ≤ 65535 ∨ ∃ k ∈ c.counts, n = (k : Int) := by
  have hport : ∀ port : UInt16, (port.toNat : Int) ≤ 65535 :=
    fun port => Int.ofNat_le.mpr (Nat.le_of_lt_succ port.toNat_lt)
  cases s <;> cases h
  case port => exact .inl (hport _)
  case adminPort => exact .inl (hport _)
  all_goals exact .inr ⟨_, by simp [counts], rfl⟩

theorem exists_setting_of_mem_counts {n : Nat} (h : n ∈ c.counts) :
    ∃ s : Setting, s.atom c = .integer n := by
  obtain rfl | rfl | rfl | rfl | rfl | rfl := by simpa [counts] using h
  · exact ⟨.maxRooms, rfl⟩
  · exact ⟨.maxMembers, rfl⟩
  · exact ⟨.gracePeriod, rfl⟩
  · exact ⟨.outboundBuffer, rfl⟩
  · exact ⟨.sendTimeout, rfl⟩
  · exact ⟨.joinTimeout, rfl⟩

theorem counts_fit_iff : (∀ n ∈ c.counts, (n : Int) ≤ Toml.maxInteger) ↔ ¬ c.TooLarge := by
  constructor
  · rintro h ⟨s, n, hatom, hn⟩
    obtain hport | ⟨k, hk, rfl⟩ := Setting.number_cases hatom
    · omega
    · have hbound := h k hk
      rw [Toml.maxInteger] at hbound
      omega
  · intro h n hn
    obtain ⟨s, hatom⟩ := exists_setting_of_mem_counts hn
    have hfits := Setting.fits_iff.mpr fun hs => h ⟨s, hs⟩
    rw [hatom] at hfits
    exact hfits.2

theorem render_of_fits (h : ¬ c.TooLarge) : c.render = .ok (c.fileWith Setting.all) := by
  have hcounts : (c.counts.all fun n => (n : Int) ≤ Toml.maxInteger) = true := by
    simpa using counts_fit_iff.mpr h
  rw [render, if_pos hcounts]
  rfl

theorem render_of_tooLarge (h : c.TooLarge) : c.render = .error .render := by
  have hcounts : ¬ (c.counts.all fun n => (n : Int) ≤ Toml.maxInteger) = true := by
    simpa using mt counts_fit_iff.mp (not_not.mpr h)
  rw [render, if_neg hcounts]

theorem render_error_iff : c.render = .error .render ↔ c.TooLarge := by
  refine ⟨fun h => ?_, render_of_tooLarge⟩
  by_contra hfits
  rw [render_of_fits hfits] at h
  cases h

theorem parse_fileWith_all (h : ¬ c.TooLarge) : parse (c.fileWith Setting.all) = .ok c := by
  have hfit : ∀ s ∈ Setting.all, ¬ s.TooLarge c := fun s _ hs => h ⟨s, hs⟩
  obtain ⟨-, hparse⟩ := (holds_fileWith (List.Nodup.of_map _ Setting.keys_nodup) hfit).parse
  rwa [defaultsWith_all] at hparse

/-! ## Saving -/

section Saving

variable {tree after : FileTree} {path text : String}

theorem save_of_tooLarge (h : c.TooLarge) :
    (c.save FileTree.system path).run tree = (.error .render, tree) := by
  rw [save, render_of_tooLarge h]
  rfl

theorem save_eq_ok_iff (hrender : c.render = .ok text) :
    (c.save FileTree.system path).run tree = (.ok (), after) ↔
      tree.write path (Text.utf8Bytes text) = .ok after := by
  simp only [save, hrender, StateT.run_bind]
  cases hwrite : tree.write path (Text.utf8Bytes text) with
  | ok written =>
    rw [FileTree.system_write_ok hwrite]
    constructor
    · intro h
      cases h
      rfl
    · intro h
      cases h
      rfl
  | error e =>
    rw [FileTree.system_write_error hwrite]
    constructor
    · intro h
      cases h
    · intro h
      cases h

theorem load_of_readText (h : tree.readText path = .ok text) :
    (load FileTree.system path).run tree = (parse text, tree) := by
  rw [load, StateT.run_bind, FileTree.system_readText, h]
  rfl

theorem load_of_save (h : (c.save FileTree.system path).run tree = (.ok (), after)) :
    (load FileTree.system path).run after = (.ok c, after) := by
  by_cases hlarge : c.TooLarge
  · rw [save_of_tooLarge hlarge] at h
    cases h
  · have hwrite := (save_eq_ok_iff (render_of_fits hlarge)).mp h
    rw [load_of_readText (FileTree.readText_write hwrite), parse_fileWith_all hlarge]

end Saving

/-- A configuration cannot be written just when a number in it is beyond the format, and is then not saved
either; otherwise its text and the file that it is saved to give it back. A file with any part of it gives
the default configuration with that part replaced, however the file is written, and all parts whose numbers
the format holds have such a file, in any order of the lines. -/
theorem saved_settings_return (c : ServerConfig) :
    (c.render = .error .render ↔ c.TooLarge) ∧
      (¬ c.TooLarge → ∃ text, c.render = .ok text ∧ parse text = .ok c) ∧
      (∀ tree path,
        (c.TooLarge → (c.save FileTree.system path).run tree = (.error .render, tree)) ∧
          ∀ after, (c.save FileTree.system path).run tree = (.ok (), after) →
            (load FileTree.system path).run after = (.ok c, after)) ∧
      ∀ settings,
        (∀ source, Holds source settings c →
          (∀ s ∈ settings, ¬ s.TooLarge c) ∧ parse source = .ok (c.defaultsWith settings)) ∧
          (settings.Nodup → (∀ s ∈ settings, ¬ s.TooLarge c) →
            Holds (c.fileWith settings) settings c) :=
  ⟨render_error_iff, fun h => ⟨_, render_of_fits h, parse_fileWith_all h⟩,
    fun _ _ => ⟨save_of_tooLarge, fun _ => load_of_save⟩,
    fun _ => ⟨fun _ => Holds.parse, holds_fileWith⟩⟩

/-- Numbers at their limits, and texts that take each of the written forms. -/
def farSettings : ServerConfig where
  host := "it's \"here\""
  port := 0
  adminPort := 65535
  maxRooms := 9223372036854775807
  maxMembers := 0
  adminHeader := "C:\\X"
  adminSecret := "\\\n'é"
  protocolFile := "\x00\"\"\"'''"

/-- One number more than the format has. -/
def beyondSettings : ServerConfig := { farSettings with gracePeriod := 9223372036854775808 }

/-- Two of the settings, spelled in another way than they are written. -/
def oddFile : String :=
  "# two\r\n'max_rooms' = 0x7fff_ffff_ffff_ffff\n\n" ++
    "\"protocol\\u005ffile\" = \"\\u0000\\\"\\\"\\\"'''\" # and no more"

theorem saved_settings_return_farSettings :
    (¬ farSettings.TooLarge ∧ ∃ text, farSettings.render = .ok text ∧ parse text = .ok farSettings) ∧
      (∃ after, (farSettings.save FileTree.system "game.toml").run {} = (.ok (), after) ∧
        (load FileTree.system "game.toml").run after = (.ok farSettings, after)) ∧
      (beyondSettings.TooLarge ∧ beyondSettings.render = .error .render) ∧
      (Holds oddFile [.protocolFile, .maxRooms] beyondSettings ∧
        parse oddFile = .ok { maxRooms := 9223372036854775807, protocolFile := "\x00\"\"\"'''" }) ∧
      Holds "protocol_file = \"\\u0000\\\"\\\"\\\"'''\"\nmax_rooms = 9223372036854775807\n"
        [.protocolFile, .maxRooms] beyondSettings := by
  obtain ⟨-, hreturns, hsaves, -⟩ := saved_settings_return farSettings
  obtain ⟨hrefused, -, -, hparts⟩ := saved_settings_return beyondSettings
  obtain ⟨hread, hwritten⟩ := hparts [.protocolFile, .maxRooms]
  have hfits : ¬ farSettings.TooLarge := counts_fit_iff.mp (by decide)
  have hbeyond : beyondSettings.TooLarge := ⟨.gracePeriod, _, rfl, by decide⟩
  have hpart : ∀ s ∈ [Setting.protocolFile, .maxRooms], ¬ s.TooLarge beyondSettings := by
    intro s hs
    obtain rfl | rfl : s = .protocolFile ∨ s = .maxRooms := by simpa using hs
    · exact Setting.fits_iff.mp trivial
    · exact Setting.fits_iff.mp ⟨by decide, by decide⟩
  have hplace : pathNames "game.toml" = ["game.toml"] ∧
      FileTree.meansFolder "game.toml" = false := by
    decide +kernel
  have hsaved : (farSettings.save FileTree.system "game.toml").run {} = (.ok (),
      { nodes := [(["game.toml"], .file (Text.utf8Bytes (farSettings.fileWith Setting.all)))] }) := by
    rw [save_eq_ok_iff (render_of_fits hfits)]
    have hpath : FileTree.checkPath "game.toml" = .ok () := rfl
    have hstart : ({} : FileTree).start "game.toml" = [] := by
      rw [FileTree.start]
      split <;> rfl
    rw [FileTree.write, hplace.1, hpath, hstart]
    simp only [hplace.2]
    rfl
  have hodd : Holds oddFile [.protocolFile, .maxRooms] beyondSettings := by
    refine ⟨[("max_rooms", .integer 9223372036854775807), ("protocol_file", .text "\x00\"\"\"'''")],
      by cbv, fun e => ?_⟩
    simp only [List.mem_cons, List.not_mem_nil, or_false, exists_eq_or_imp, exists_eq_left]
    exact or_comm
  have hfile : beyondSettings.fileWith [.protocolFile, .maxRooms] =
      "protocol_file = \"\\u0000\\\"\\\"\\\"'''\"\nmax_rooms = 9223372036854775807\n" := by
    cbv
  refine ⟨⟨hfits, hreturns hfits⟩, ⟨_, hsaved, (hsaves {} _).2 _ hsaved⟩,
    ⟨hbeyond, hrefused.mpr hbeyond⟩, ⟨hodd, ?_⟩, ?_⟩
  · rw [(hread oddFile hodd).2]
    rfl
  · rw [← hfile]
    exact hwritten (by decide) hpart

end Gamewire.ServerConfig
