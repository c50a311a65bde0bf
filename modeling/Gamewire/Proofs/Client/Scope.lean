import Gamewire.Proofs.Client.Names
import Gamewire.Proofs.Client.Writing

/-! What the names in a client module stand for. Functions of messages are declared behind the runtime and
in front of the session, and the last declaration of a name counts: a message can override `decodeAs`, and
`encodeJoin`, `decodeAt` and `decodeSystem` override the functions of messages. All other names are told
apart. -/
namespace Gamewire.Client
set_option autoImplicit false

/-! ## Last declarations -/

/-- What a name stands for behind these declarations. -/
def lastOf (ds : List Declaration) (name : String) : Option Function :=
  (ds.map Declaration.named).reverse.lookup name

variable {ds ds' : List Declaration} {name : String} {d : Declaration}

theorem lastOf_append : lastOf (ds ++ ds') name = (lastOf ds' name).or (lastOf ds name) := by
  rw [lastOf, List.map_append, List.reverse_append, List.lookup_append]
  rfl

theorem lastOf_eq_none (h : name ∉ ds.map (·.name)) : lastOf ds name = none := by
  refine List.lookup_eq_none_iff.mpr fun x hx => ?_
  obtain ⟨d, hd, rfl⟩ := List.mem_map.mp (List.mem_reverse.mp hx)
  exact bne_iff_ne.mpr fun hname => h (hname ▸ List.mem_map_of_mem hd)

theorem lastOf_of_nodup (hnodup : (ds.map (·.name)).Nodup) (hd : d ∈ ds) :
    lastOf ds d.name = some d.function := by
  refine lookup_of_nodup ?_ (List.mem_reverse.mpr (List.mem_map.mpr ⟨d, hd, rfl⟩))
  have hkeys : (ds.map Declaration.named).map (·.1) = ds.map (·.name) := by
    rw [List.map_map]
    rfl
  rw [List.map_reverse, hkeys]
  exact List.nodup_reverse.mpr hnodup

/-! ## Names of a module -/

variable {p : Protocol} {m : MessageSpec}

theorem function?_ofProtocol (p : Protocol) (name : String) : (Scope.ofProtocol p).function? name =
    (lastOf sessionDeclarations name).or
      ((lastOf (p.messages.flatMap messageDeclarations) name).or (lastOf runtimeDeclarations name)) := by
  have hall : (Scope.ofProtocol p).function? name = lastOf (moduleDeclarations p) name := rfl
  rw [hall, moduleDeclarations, lastOf_append, lastOf_append]

theorem names_messages (messages : List MessageSpec) :
    (messages.flatMap messageDeclarations).map (·.name) = messages.flatMap (namesOf kinds) := by
  rw [List.map_flatMap]
  rfl

theorem names_session : sessionDeclarations.map (·.name) =
    ["decodeAt", "decode", "isSystemFrame", "encodeJoin", "decodeSystem", "connect"] := rfl

theorem names_runtime : runtimeDeclarations.map (·.name) = ["toBytes", "checkArray", "decodeAs"] := rfl

/-- The names of the session are overridden by nothing. -/
theorem function?_session {f : Shared} (hf : f.declaration ∈ sessionDeclarations) :
    (Scope.ofProtocol p).function? f.declaration.name = some (.shared f) := by
  have hnodup : (sessionDeclarations.map (·.name)).Nodup := by
    rw [names_session]
    decide
  rw [function?_ofProtocol, lastOf_of_nodup hnodup hf, f.function_declaration]
  rfl

/-- A name that no message declares stands for the function of the runtime. -/
theorem function?_runtime {f : Shared} (hf : f.declaration ∈ runtimeDeclarations)
    (hsession : f.declaration.name ∉ sessionDeclarations.map (·.name))
    (hmessages : f.declaration.name ∉ p.messages.flatMap (namesOf kinds)) :
    (Scope.ofProtocol p).function? f.declaration.name = some (.shared f) := by
  have hnodup : (runtimeDeclarations.map (·.name)).Nodup := by
    rw [names_runtime]
    decide
  rw [← names_messages] at hmessages
  rw [function?_ofProtocol, lastOf_eq_none hsession, lastOf_eq_none hmessages,
    lastOf_of_nodup hnodup hf, f.function_declaration]
  rfl

theorem checks_ofProtocol (p : Protocol) : (Scope.ofProtocol p).Checks := by
  refine function?_runtime (f := .checkArray) (by simp [runtimeDeclarations])
    (by rw [names_session]; decide) fun hmem => ?_
  obtain ⟨m, -, hname⟩ := List.mem_flatMap.mp hmem
  obtain ⟨kind, hkind, hname⟩ := List.mem_map.mp hname
  have hchars := congrArg String.toList hname
  simp only [kinds, List.mem_cons, List.not_mem_nil, or_false] at hkind
  obtain rfl | rfl | rfl := hkind <;> simp [Shared.declaration, Part.declaration] at hchars

/-- What a function of a message is overridden by stands in the session. -/
theorem function?_message (hidents : (p.messages.map (·.ident)).Nodup) (hm : m ∈ p.messages)
    (hd : d ∈ messageDeclarations m) (hsession : d.name ∉ sessionDeclarations.map (·.name)) :
    (Scope.ofProtocol p).function? d.name = some d.function := by
  have hnodup : ((p.messages.flatMap messageDeclarations).map (·.name)).Nodup := by
    rw [names_messages]
    exact namesOf_nodup (List.Sublist.refl kinds) hidents
  rw [function?_ofProtocol, lastOf_eq_none hsession,
    lastOf_of_nodup hnodup (List.mem_flatMap.mpr ⟨m, hm, hd⟩)]
  rfl

/-! ## Functions of messages -/

/-- The idents that complete a name of the session; the empty one is none of a message. -/
theorem endings_session : endingsOf "encode" (sessionDeclarations.map (·.name)) = ["Join"] ∧
    endingsOf "read" (sessionDeclarations.map (·.name)) = [] ∧
      endingsOf "decode" (sessionDeclarations.map (·.name)) = ["At", "", "System"] := by
  rw [names_session]
  exact ⟨by cbv, by cbv, by cbv⟩

section

variable {s : Schema} (hs : s.validate = .ok p) (hm : m ∈ p.messages)

include hs hm

theorem function?_encode (hident : m.ident ≠ "Join") :
    (Scope.ofProtocol p).function? ("encode" ++ m.ident) =
      some (.encoder (Encoder.ofMessage m).commands) := by
  have hsession : "encode" ++ m.ident ∉ sessionDeclarations.map (·.name) := by
    rw [← mem_endingsOf, endings_session.1, List.mem_singleton]
    exact hident
  have hspelt := speltNames_of_validate hs m hm
  have hfunction := Encoder.function_declaration (e := .ofMessage m) hspelt.name
    (List.forall_mem_map.mpr hspelt.fields)
  rw [← hfunction]
  exact function?_message (idents_of_validate hs).1 hm List.mem_cons_self hsession

theorem function?_read : (Scope.ofProtocol p).function? ("read" ++ m.ident) =
    some (.reader (Reader.ofMessage m).steps) := by
  have hsession : "read" ++ m.ident ∉ sessionDeclarations.map (·.name) := by
    rw [← mem_endingsOf, endings_session.2.1]
    exact List.not_mem_nil
  have hspelt := speltNames_of_validate hs m hm
  have hfunction := Reader.function_declaration (r := .ofMessage m)
    (List.forall_mem_map.mpr hspelt.fields)
  rw [← hfunction]
  exact function?_message (idents_of_validate hs).1 hm
    (List.mem_cons_of_mem _ List.mem_cons_self) hsession

theorem function?_decode (hident : m.ident ∉ ["At", "System"]) :
    (Scope.ofProtocol p).function? ("decode" ++ m.ident) =
      some (.decoder m.tag.toNat ("read" ++ m.ident)) := by
  have hnonempty := (idents_of_validate hs).2 m hm
  have hsession : "decode" ++ m.ident ∉ sessionDeclarations.map (·.name) := by
    rw [← mem_endingsOf, endings_session.2.2]
    simp only [List.mem_cons, List.not_mem_nil, or_false, not_or] at hident ⊢
    exact ⟨hident.1, hnonempty, hident.2⟩
  rw [← function_decoderDeclaration (speltNames_of_validate hs m hm).ident]
  exact function?_message (idents_of_validate hs).1 hm
    (List.mem_cons_of_mem _ (List.mem_cons_of_mem _ List.mem_cons_self)) hsession

end

theorem function?_decodeAs (h : ∀ m ∈ p.messages, m.ident ≠ "As") :
    (Scope.ofProtocol p).function? "decodeAs" = some (.shared .decodeAs) := by
  refine function?_runtime (f := .decodeAs) (by simp [runtimeDeclarations])
    (by rw [names_session]; decide) fun hmem => ?_
  obtain ⟨m, hm, hname⟩ := List.mem_flatMap.mp hmem
  obtain ⟨kind, hkind, hname⟩ := List.mem_map.mp hname
  have hdecode : kind ++ m.ident = "decode" ++ "As" := hname
  exact h m hm (kind_append_inj hkind (by decide) hdecode).2

end Gamewire.Client
