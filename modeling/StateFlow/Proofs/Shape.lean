import StateFlow.Playbook.Shape
import StateFlow.Proofs.Kept

/-!
# Shapes of states

A state has its shape if it names its kind and has the shape of that kind (`accepts_state_iff`).
What is kept of a value is similar to it (`similar_of_kept`), so that every shape accepts what is
kept of the values it accepts.
-/

namespace StateFlow.Playbook.Shape

open StateFlow.Schema StateFlow.Json

variable {target : Schema} {marker : String} {members : Entries Json}

theorem accepts_exactlyOne {names : List String} :
    Accepts target (exactlyOne names) (.obj members) ↔
      names.countP (fun name => name ∈ Entries.keys members) = 1 := by
  have hnames : (fun name => (violations (Instance.of target (.obj members))
      (.required [name])).isEmpty) = fun name => decide (name ∈ Entries.keys members) := by
    funext name
    rw [Bool.eq_iff_iff, List.isEmpty_iff, decide_eq_true_iff]
    exact accepts_required.trans (by simp)
  rw [exactlyOne, accepts_oneOf, List.countP_map, Function.comp_def, hnames]

theorem accepts_kindObject {kind : Schema} {required : List String} {known : Entries Inner}
    {rules : List Schema} :
    Accepts target (kindObject kind required known rules) (.obj members) ↔
      (∀ name ∈ "Type" :: required, name ∈ Entries.keys members) ∧
      (∀ entry ∈ members, ∃ inner,
        Entries.get? (("Type", .schema kind) :: ("Comment", text) :: known) entry.1 = some inner ∧
          inner.Accepts target entry.2) ∧
      ∀ rule ∈ rules, Accepts target rule (.obj members) := by
  rw [kindObject, accepts_all]
  simp only [List.forall_mem_cons, List.not_mem_nil, false_imp_iff, implies_true, and_true]
  rw [accepts_type, accepts_required, accepts_closed, accepts_all, List.forall_mem_cons]
  simp [TypeName.accepts]

/-! ## Kinds -/

theorem ofName?_name (kind : Kind) : Kind.ofName? kind.name = some kind := by
  cases kind <;> rfl

theorem name_inj {a b : Kind} : a.name = b.name ↔ a = b := by
  refine ⟨fun hname => ?_, congrArg Kind.name⟩
  have hsome := ofName?_name a
  rw [hname, ofName?_name b] at hsome
  exact (Option.some.inj hsome).symm

theorem name_of_ofName? {text : String} {kind : Kind} (hkind : Kind.ofName? text = some kind) :
    kind.name = text := by
  have hname := List.find?_some hkind
  exact decide_eq_true_eq.mp hname

/-- A member names one kind at most. -/
theorem kind_unique {a b : Kind} {v : Option Json} (ha : v = some (.str a.name))
    (hb : v = some (.str b.name)) : a = b := by
  rw [ha, Option.some.injEq, Json.str.injEq, name_inj] at hb
  exact hb

theorem mem_all (kind : Kind) : kind ∈ Kind.all := by
  cases kind <;> decide

theorem Constant.accepts_text {text : String} {v : Json} :
    (Constant.text text).accepts v = true ↔ v = .str text := by
  cases v <;> simp [Constant.accepts, eq_comm]

theorem accepts_isKind {kind : Kind} {v : Json} :
    Accepts target (isKind kind) v ↔ v = .str kind.name := by
  rw [isKind, accepts_const, Constant.accepts_text]

theorem accepts_knownKind {v : Json} :
    Accepts target (.enum (Kind.all.map fun kind => .text kind.name)) v ↔
      ∃ kind : Kind, v = .str kind.name := by
  simp [Constant.accepts_text, mem_all]

private theorem accepts_named {kind : Kind} :
    Accepts target (.all [.required ["Type"], .properties [("Type", .schema (isKind kind))]])
      (.obj members) ↔ Entries.get? members "Type" = some (.str kind.name) := by
  rw [accepts_all]
  simp only [List.forall_mem_cons, List.not_mem_nil, false_imp_iff, implies_true, and_true]
  rw [accepts_required, accepts_properties]
  simp only [List.forall_mem_singleton, Inner.Accepts, Inner.resolve, accepts_isKind]
  constructor
  · rintro ⟨hpresent, hvalue⟩
    obtain ⟨value, hget⟩ := Entries.mem_keys_iff_get?.mp hpresent
    rw [hget, hvalue value hget]
  · intro hget
    refine ⟨Entries.mem_keys_iff_get?.mpr ⟨_, hget⟩, fun value hvalue => ?_⟩
    rw [hget] at hvalue
    exact (Option.some.inj hvalue).symm

theorem accepts_byKind_iff {shapes : List (Kind × Schema)} :
    Accepts target (byKind shapes) (.obj members) ↔
      ∃ kind : Kind, Entries.get? members "Type" = some (.str kind.name) ∧
        ∀ shape, (kind, shape) ∈ shapes → Accepts target shape (.obj members) := by
  rw [byKind, accepts_all]
  simp only [List.forall_mem_cons, List.not_mem_nil, false_imp_iff, implies_true, and_true]
  rw [accepts_type, accepts_required, accepts_properties, accepts_all]
  simp only [List.forall_mem_singleton, List.forall_mem_map, accepts_implies, accepts_named,
    Inner.Accepts, Inner.resolve, accepts_knownKind]
  constructor
  · rintro ⟨-, hpresent, hknown, hshapes⟩
    obtain ⟨value, hget⟩ := Entries.mem_keys_iff_get?.mp hpresent
    obtain ⟨kind, rfl⟩ := hknown value hget
    exact ⟨kind, hget, fun shape hshape => hshapes (kind, shape) hshape hget⟩
  · rintro ⟨kind, hget, hshapes⟩
    refine ⟨rfl, Entries.mem_keys_iff_get?.mpr ⟨_, hget⟩, fun value hvalue => ?_, ?_⟩
    · rw [hget] at hvalue
      exact ⟨kind, (Option.some.inj hvalue).symm⟩
    · rintro ⟨other, shape⟩ hshape hother
      exact hshapes shape (kind_unique hother hget ▸ hshape)

/-- A state has the shape of the kind that it names. -/
theorem accepts_state_iff :
    Accepts target (state marker) (.obj members) ↔
      ∃ kind : Kind, Entries.get? members "Type" = some (.str kind.name) ∧
        Accepts target (ofKind marker kind) (.obj members) := by
  rw [state, accepts_byKind_iff]
  simp [mem_all]

/-! ## What is kept -/

theorem robust_ofKind (marker : String) (kind : Kind) : robust (ofKind marker kind) = true := by
  cases kind <;> rfl

theorem accepts_taskKind {v : Json} :
    Accepts target (.enum [.text Kind.task.name, .text Kind.interaction.name]) v ↔
      v = .str Kind.task.name ∨ v = .str Kind.interaction.name := by
  simp [Constant.accepts_text]

theorem accepts_kind_of_mem {kind : Schema} {required : List String} {known : Entries Inner}
    {rules : List Schema} {value : Json}
    (hshape : Accepts target (kindObject kind required known rules) (.obj members))
    (hmem : ("Type", value) ∈ members) : Accepts target kind value := by
  obtain ⟨inner, hinner, haccepts⟩ := (accepts_kindObject.mp hshape).2.1 _ hmem
  cases hinner
  exact haccepts

/-- The values of a shape name its own kind, or one of the same shape: tasks and interactions share
theirs. -/
theorem exists_kind_of_mem {kind : Kind} {value : Json}
    (hshape : Accepts target (ofKind marker kind) (.obj members))
    (hmem : ("Type", value) ∈ members) :
    ∃ other : Kind, value = .str other.name ∧ ofKind marker other = ofKind marker kind := by
  cases kind with
  | task | interaction =>
      rcases accepts_taskKind.mp (accepts_kind_of_mem hshape hmem) with rfl | rfl
      · exact ⟨.task, rfl, rfl⟩
      · exact ⟨.interaction, rfl, rfl⟩
  | _ => exact ⟨_, accepts_isKind.mp (accepts_kind_of_mem hshape hmem), rfl⟩

theorem exists_obj_of_accepts {u : Json} (haccepts : Accepts target (state marker) u) :
    ∃ us, u = .obj us := by
  rw [state, byKind, accepts_all, List.forall_mem_cons, accepts_type] at haccepts
  cases u with
  | obj us => exact ⟨us, rfl⟩
  | _ => cases haccepts.1

theorem accepts_state_of_similar {u w : Json} (hsimilar : Similar target u w)
    (haccepts : Accepts target (state marker) u) : Accepts target (state marker) w := by
  obtain ⟨us, rfl⟩ := exists_obj_of_accepts haccepts
  obtain ⟨ws, rfl, hkeys⟩ := hsimilar.exists_obj
  obtain ⟨kind, hkind, hshape⟩ := accepts_state_iff.mp haccepts
  have hshape' := accepts_of_similar hsimilar _ (robust_ofKind marker kind) hshape
  obtain ⟨value, hvalue⟩ := Entries.mem_keys_iff_get?.mp
    ((hkeys "Type").mp (Entries.mem_keys_iff_get?.mpr ⟨_, hkind⟩))
  obtain ⟨other, rfl, heq⟩ := exists_kind_of_mem hshape' (Entries.mem_of_get? hvalue)
  exact accepts_state_iff.mpr ⟨other, hvalue, heq ▸ hshape'⟩

theorem similar_of_kept {u w : Json} (hkept : Kept u w) : Similar (state marker) u w :=
  Schema.similar_of_kept (fun _ _ => accepts_state_of_similar) hkept

end StateFlow.Playbook.Shape
