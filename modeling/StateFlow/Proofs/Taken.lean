import StateFlow.Proofs.Reread

/-!
# Accepted values can be read

Shapes and records are two descriptions of the same things.  A record takes every value that its
shape accepts (`Takes`), and by induction over the value so do states and machines (`taken`).  Only
a concurrency may be too great for the word it is read as.
-/

namespace StateFlow.Playbook

open StateFlow.Json StateFlow.Schema

variable {marker : String} {target : Schema} {members : Entries Json} {known : Entries Inner}
variable {β : Type}

/-! ## Records without states -/

def Takes (target : Schema) (inner : Inner) (read : Json → Except Mismatch β) : Prop :=
  ∀ v, inner.Accepts target v → ∃ x, read v = .ok x

theorem takes_string {parts : List Schema} (htype : .type .string ∈ parts) :
    Takes target (.schema (.all parts)) readString := by
  intro v haccepts
  have hstring := accepts_type.mp (accepts_all.mp haccepts _ htype)
  cases v with
  | str text => exact ⟨text, rfl⟩
  | _ => cases hstring

theorem takes_boolean : Takes target Shape.boolean readBool := by
  intro v haccepts
  have hboolean := accepts_type.mp (accepts_inner.mp haccepts _ List.mem_cons_self)
  cases v with
  | bool b => exact ⟨b, rfl⟩
  | _ => cases hboolean

theorem takes_true : Takes target (Shape.inner [.const (.bool true)]) readBool := by
  intro v haccepts
  have hconst := accepts_const.mp (accepts_inner.mp haccepts _ List.mem_cons_self)
  cases v with
  | bool b => exact ⟨b, rfl⟩
  | _ => cases hconst

theorem takes_number {parts : List Schema} (htype : .type .number ∈ parts) :
    Takes target (.schema (.all parts)) readNumber := by
  intro v haccepts
  have hnumber := accepts_type.mp (accepts_all.mp haccepts _ htype)
  cases v with
  | num n => exact ⟨n, rfl⟩
  | _ => cases hnumber

theorem takes_any {inner : Inner} : Takes target inner readAny := fun v _ => ⟨v, rfl⟩

theorem takes_seconds {least : Nat} : Takes target (Shape.seconds least) readWord := by
  intro v haccepts
  have htype := accepts_type.mp (accepts_inner.mp haccepts _ List.mem_cons_self)
  cases v with
  | num n =>
      obtain ⟨x, hx, -⟩ := exists_word_of_seconds haccepts
      exact ⟨x, by rw [readWord, hx]⟩
  | _ => cases htype

theorem exists_mapM_eq_ok {α ε : Type} {f : α → Except ε β} {items : List α}
    (hitems : ∀ item ∈ items, ∃ x, f item = .ok x) : ∃ xs, items.mapM f = .ok xs := by
  induction items with
  | nil => exact ⟨[], rfl⟩
  | cons item items ih =>
      obtain ⟨x, hx⟩ := hitems item List.mem_cons_self
      obtain ⟨xs, hxs⟩ := ih fun other hother => hitems other (List.mem_cons_of_mem _ hother)
      exact ⟨x :: xs, mapM_eq_ok.mpr (.cons hx (mapM_eq_ok.mp hxs))⟩

theorem takes_list {parts : List Schema} {item : Inner} {read : Json → Except Mismatch β}
    (htype : .type .array ∈ parts) (heach : .eachItem item ∈ parts)
    (htakes : Takes target item read) : Takes target (.schema (.all parts)) (readList read) := by
  intro v haccepts
  have harray := accepts_type.mp (accepts_all.mp haccepts _ htype)
  have hitems := accepts_all.mp haccepts _ heach
  cases v with
  | arr items =>
      rw [accepts_eachItem] at hitems
      exact exists_mapM_eq_ok fun item hitem => htakes item (hitems item hitem)
  | _ => cases harray

theorem exists_readOptional {read : Json → Except Mismatch β} {v : Json}
    (hread : ∃ x, read v = .ok x) : ∃ x, readOptional read v = .ok x := by
  obtain ⟨x, hx⟩ := hread
  unfold readOptional
  split
  · exact ⟨none, rfl⟩
  · exact ⟨some x, by rw [hx]; rfl⟩

/-! ## Members of closed objects -/

theorem optionalPart_succeeds {key : String} {read : Json → Except Mismatch β} :
    (optionalPart (Part.ofMembers members) key read).Succeeds ↔
      ∀ v, Entries.get? members key = some v → ∃ x, readOptional read v = .ok x := by
  simp [optionalPart, Members.optional_succeeds, get?_ofMembers, value_ofJson]

section Members

variable (hclosed : Accepts target (.closed known) (.obj members)) {key : String} {inner : Inner}
variable {read : Json → Except Mismatch β}

include hclosed

theorem succeeds_required (hpresent : key ∈ Entries.keys members)
    (hinner : Entries.get? known key = some inner) (htakes : Takes target inner read) :
    (Members.required members key read).Succeeds := by
  obtain ⟨v, hv⟩ := Entries.mem_keys_iff_get?.mp hpresent
  exact Members.required_succeeds.mpr ⟨v, hv, htakes v (accepts_member hclosed hv hinner)⟩

theorem succeeds_optional (hinner : Entries.get? known key = some inner)
    (htakes : Takes target inner read) :
    (Members.optional members key (readOptional read)).Succeeds :=
  Members.optional_succeeds.mpr fun v hv =>
    exists_readOptional (htakes v (accepts_member hclosed hv hinner))

theorem succeeds_requiredPart (hpresent : key ∈ Entries.keys members)
    (hinner : Entries.get? known key = some inner) (htakes : Takes target inner read) :
    (requiredPart (Part.ofMembers members) key read).Succeeds := by
  obtain ⟨x, hx⟩ := succeeds_required hclosed hpresent hinner htakes
  exact ⟨x, requiredPart_gives.mpr (Members.required_gives.mp hx)⟩

theorem succeeds_optionalPart (hinner : Entries.get? known key = some inner)
    (htakes : Takes target inner read) :
    (optionalPart (Part.ofMembers members) key read).Succeeds :=
  optionalPart_succeeds.mpr fun v hv =>
    exists_readOptional (htakes v (accepts_member hclosed hv hinner))

end Members

theorem takes_text : Takes target Shape.text readString := takes_string List.mem_cons_self

theorem takes_path : Takes target Shape.path readString := takes_string List.mem_cons_self

theorem takes_stateName : Takes target Shape.stateName readString := takes_string List.mem_cons_self

theorem takes_errorEquals : Takes target Shape.errorEquals (readList readString) :=
  takes_list (by simp) (by simp) takes_text

theorem exists_obj_of_type {v : Json} (htype : Accepts target (.type .object) v) :
    ∃ m, v = .obj m := by
  rw [accepts_type] at htype
  cases v with
  | obj m => exact ⟨m, rfl⟩
  | _ => cases htype

theorem takes_retrier : Takes target Shape.retrier Retrier.ofJson := by
  intro v haccepts
  simp only [Shape.retrier, accepts_inner, List.forall_mem_cons] at haccepts
  obtain ⟨htype, hrequired, hclosed, -⟩ := haccepts
  obtain ⟨m, rfl⟩ := exists_obj_of_type htype
  refine Reading.exists_toExcept_eq_ok.mpr ?_
  simp only [Reading.succeeds_seq, Reading.succeeds_map]
  refine ⟨⟨⟨?_, ?_⟩, ?_⟩, ?_⟩
  · exact succeeds_required hclosed (accepts_required.mp hrequired _ (by simp)) rfl
      takes_errorEquals
  · exact succeeds_optional hclosed rfl takes_seconds
  · exact succeeds_optional hclosed rfl takes_seconds
  · exact succeeds_optional hclosed rfl (takes_number List.mem_cons_self)

theorem takes_catcher : Takes target Shape.catcher Catcher.ofJson := by
  intro v haccepts
  simp only [Shape.catcher, accepts_inner, List.forall_mem_cons] at haccepts
  obtain ⟨htype, hrequired, hclosed, -⟩ := haccepts
  obtain ⟨m, rfl⟩ := exists_obj_of_type htype
  rw [accepts_required] at hrequired
  refine Reading.exists_toExcept_eq_ok.mpr ?_
  simp only [Reading.succeeds_seq, Reading.succeeds_map]
  refine ⟨⟨?_, ?_⟩, ?_⟩
  · exact succeeds_required hclosed (hrequired _ (by simp)) rfl takes_errorEquals
  · exact succeeds_optional hclosed rfl takes_path
  · exact succeeds_required hclosed (hrequired _ (by simp)) rfl takes_stateName

/-- A choice rule needs nothing but to say where to go. -/
theorem exists_rule {v : Json} {names : List String} (htype : Accepts target (.type .object) v)
    (hrequired : Accepts target (.required names) v) (hnext : "Next" ∈ names)
    (hclosed : Accepts target (.closed known) v)
    (hinner : Entries.get? known "Next" = some Shape.stateName) :
    ∃ r, ChoiceRule.ofJson v = .ok r := by
  obtain ⟨m, rfl⟩ := exists_obj_of_type htype
  refine Reading.exists_toExcept_eq_ok.mpr ?_
  simp only [Reading.succeeds_seq, Reading.succeeds_map, Reading.succeeds_pure, true_and]
  exact succeeds_required hclosed (accepts_required.mp hrequired _ hnext) hinner takes_stateName

theorem takes_rule : Takes target (.schema (.anyOf [Shape.booleanExpression,
    Shape.topLevelDataTest])) ChoiceRule.ofJson := by
  intro v haccepts
  rw [Inner.Accepts, Inner.resolve, accepts_anyOf] at haccepts
  obtain ⟨shape, hshape, haccepts⟩ := haccepts
  simp only [List.mem_cons, List.not_mem_nil, or_false] at hshape
  rcases hshape with rfl | rfl
  · simp only [Shape.booleanExpression, accepts_all, List.forall_mem_cons] at haccepts
    exact exists_rule haccepts.1 haccepts.2.1 (by simp) haccepts.2.2.1 rfl
  · simp only [Shape.topLevelDataTest, accepts_all, List.forall_mem_cons] at haccepts
    exact exists_rule haccepts.1 haccepts.2.1 (by simp) haccepts.2.2.1 rfl

theorem takes_disableDefaultRetry :
    Takes target Shape.disableDefaultRetry DisableDefaultRetry.ofJson := by
  intro v haccepts
  simp only [Shape.disableDefaultRetry, accepts_inner, List.forall_mem_cons] at haccepts
  obtain ⟨htype, hclosed, -⟩ := haccepts
  obtain ⟨m, rfl⟩ := exists_obj_of_type htype
  refine Reading.exists_toExcept_eq_ok.mpr ?_
  simp only [Reading.succeeds_seq, Reading.succeeds_map]
  refine ⟨succeeds_optional hclosed rfl takes_boolean, succeeds_optional hclosed rfl ?_⟩
  exact takes_list (by simp) (by simp) takes_stateName

/-! ## Parts of states -/

section Fields

variable (hclosed : Accepts target (.closed known) (.obj members))

include hclosed

theorem succeeds_header (hcomment : Entries.get? known "Comment" = some Shape.text)
    (hinput : Entries.get? known "InputPath" = some Shape.path)
    (houtput : Entries.get? known "OutputPath" = some Shape.path) :
    (Fields.header (Part.ofMembers members)).Succeeds := by
  simp only [Fields.header, Reading.succeeds_seq, Reading.succeeds_map]
  exact ⟨⟨succeeds_optionalPart hclosed hcomment takes_text,
    succeeds_optionalPart hclosed hinput takes_path⟩,
    succeeds_optionalPart hclosed houtput takes_path⟩

theorem succeeds_exit (hnext : Entries.get? known "Next" = some Shape.stateName)
    (hend : Entries.get? known "End" = some (Shape.inner [.const (.bool true)])) :
    (Fields.exit (Part.ofMembers members)).Succeeds := by
  simp only [Fields.exit, Reading.succeeds_seq, Reading.succeeds_map]
  exact ⟨succeeds_optionalPart hclosed hnext takes_stateName,
    succeeds_optionalPart hclosed hend takes_true⟩

theorem succeeds_effects {resultPath : Inner} (htakes : Takes target resultPath readString)
    (hparameters : Entries.get? known "Parameters" = some Shape.anyObject)
    (hselector : Entries.get? known "ResultSelector" = some Shape.anyObject)
    (hpath : Entries.get? known "ResultPath" = some resultPath) :
    (Fields.effects (Part.ofMembers members)).Succeeds := by
  simp only [Fields.effects, Reading.succeeds_seq, Reading.succeeds_map]
  exact ⟨⟨succeeds_optionalPart hclosed hparameters takes_any,
    succeeds_optionalPart hclosed hselector takes_any⟩,
    succeeds_optionalPart hclosed hpath htakes⟩

theorem succeeds_recovery
    (hretry : Entries.get? known "Retry" =
      some (Shape.inner [.type .array, .eachItem Shape.retrier]))
    (hcatch : Entries.get? known "Catch" =
      some (Shape.inner [.type .array, .eachItem Shape.catcher])) :
    (Fields.recovery (Part.ofMembers members)).Succeeds := by
  simp only [Fields.recovery, Reading.succeeds_seq, Reading.succeeds_map]
  exact ⟨succeeds_optionalPart hclosed hretry (takes_list (by simp) (by simp) takes_retrier),
    succeeds_optionalPart hclosed hcatch (takes_list (by simp) (by simp) takes_catcher)⟩

end Fields

/-! ## States -/

theorem succeeds_pass (haccepts : Accepts target Shape.pass (.obj members)) :
    (Fields.pass (Part.ofMembers members)).Succeeds := by
  have hclosed := closed_of_accepts haccepts
  simp only [Fields.pass, Reading.succeeds_seq, Reading.succeeds_map]
  refine ⟨⟨⟨⟨succeeds_header hclosed rfl rfl rfl, ?_⟩, ?_⟩, ?_⟩, succeeds_exit hclosed rfl rfl⟩
  · exact succeeds_optionalPart hclosed rfl takes_any
  · exact succeeds_optionalPart hclosed rfl takes_any
  · exact succeeds_optionalPart hclosed rfl takes_path

theorem succeeds_fail (haccepts : Accepts target Shape.fail (.obj members)) :
    (Fields.fail (Part.ofMembers members)).Succeeds := by
  have hclosed := closed_of_accepts haccepts
  simp only [Fields.fail, Reading.succeeds_seq, Reading.succeeds_map]
  refine ⟨⟨?_, ?_⟩, ?_⟩
  · exact succeeds_optionalPart hclosed rfl takes_text
  · exact succeeds_optionalPart hclosed rfl takes_text
  · exact succeeds_optionalPart hclosed rfl takes_text

theorem succeeds_wait (haccepts : Accepts target (Shape.wait marker) (.obj members)) :
    (Fields.wait (Part.ofMembers members)).Succeeds := by
  have hclosed := closed_of_accepts haccepts
  simp only [Fields.wait, Reading.succeeds_seq, Reading.succeeds_map]
  refine ⟨⟨⟨⟨⟨succeeds_header hclosed rfl rfl rfl, ?_⟩, ?_⟩, ?_⟩, ?_⟩,
    succeeds_exit hclosed rfl rfl⟩
  · exact succeeds_optionalPart hclosed rfl takes_any
  · exact succeeds_optionalPart hclosed rfl (takes_string List.mem_cons_self)
  · exact succeeds_optionalPart hclosed rfl takes_path
  · exact succeeds_optionalPart hclosed rfl takes_path

theorem present_of_accepts {named : Schema} {required : List String} {rules : List Schema}
    (haccepts : Accepts target (Shape.kindObject named required known rules) (.obj members)) :
    ∀ name ∈ required, name ∈ Entries.keys members :=
  fun name hname => (Shape.accepts_kindObject.mp haccepts).1 name (List.mem_cons_of_mem _ hname)

theorem succeeds_task {terminal : Shape.Terminal}
    (haccepts : Accepts target (Shape.task terminal) (.obj members)) :
    (Fields.task (Part.ofMembers members)).Succeeds := by
  have hclosed := closed_of_accepts haccepts
  simp only [Fields.task, Reading.succeeds_seq, Reading.succeeds_map]
  refine ⟨⟨⟨⟨⟨⟨⟨⟨succeeds_header hclosed rfl rfl rfl, ?_⟩, ?_⟩, ?_⟩, ?_⟩, ?_⟩, ?_⟩,
    succeeds_recovery hclosed rfl rfl⟩, succeeds_exit hclosed rfl rfl⟩
  · exact succeeds_requiredPart hclosed (present_of_accepts haccepts _ List.mem_cons_self) rfl
      takes_text
  · exact succeeds_effects hclosed takes_path rfl rfl rfl
  · exact succeeds_optionalPart hclosed rfl takes_seconds
  · exact succeeds_optionalPart hclosed rfl takes_path
  · exact succeeds_optionalPart hclosed rfl takes_seconds
  · exact succeeds_optionalPart hclosed rfl takes_path

theorem succeeds_choice (haccepts : Accepts target Shape.choice (.obj members)) :
    (Fields.choice (Part.ofMembers members)).Succeeds := by
  have hclosed := closed_of_accepts haccepts
  simp only [Fields.choice, Reading.succeeds_seq, Reading.succeeds_map]
  refine ⟨⟨succeeds_header hclosed rfl rfl rfl, ?_⟩, ?_⟩
  · exact succeeds_requiredPart hclosed (present_of_accepts haccepts _ List.mem_cons_self) rfl
      (takes_list (by simp) (by simp) takes_rule)
  · exact succeeds_optionalPart hclosed rfl takes_stateName

/-! ## States with machines -/

/-- What is accepted where states or machines are asked for can be read, as long as concurrencies
fit. -/
structure Taken (marker : String) (v : Json) : Prop where
  state : Accepts (Shape.state marker) (Shape.state marker) v → ConcurrencyFits .state v →
    ∃ s, (Part.ofJson v).state.get = .ok s
  states : Shape.states.Accepts (Shape.state marker) v → ConcurrencyFits .states v →
    ∃ own, (Part.ofJson v).states.get = .ok own
  machine : Shape.machine.Accepts (Shape.state marker) v → ConcurrencyFits .machine v →
    ∃ m, (Part.ofJson v).machine.get = .ok m
  machines : Accepts (Shape.state marker) (.type .array) v →
    Accepts (Shape.state marker) (.eachItem Shape.machine) v → ConcurrencyFits .machines v →
      ∃ ms, (Part.ofJson v).machines.get = .ok ms

theorem succeeds_member {key : String} {v : Json} {read : Part → Except Mismatch β}
    (hv : Entries.get? members key = some v) (hread : ∃ x, read (Part.ofJson v) = .ok x) :
    (Members.required (Part.ofMembers members) key read).Succeeds := by
  obtain ⟨x, hx⟩ := hread
  exact ⟨x, member_gives.mpr ⟨v, hv, hx⟩⟩

theorem succeeds_parallel {terminal : Shape.Terminal}
    (haccepts : Accepts (Shape.state marker) (Shape.parallel terminal) (.obj members))
    (hfits : ConcurrencyFits .state (.obj members))
    (ih : ∀ entry ∈ members, Taken marker entry.2) :
    (Fields.state (Part.ofMembers members) .parallel).Succeeds := by
  have hclosed := closed_of_accepts haccepts
  obtain ⟨v, hv⟩ := Entries.mem_keys_iff_get?.mp
    (present_of_accepts haccepts "Branches" List.mem_cons_self)
  have hbranches := accepts_inner.mp (accepts_member hclosed hv rfl)
  simp only [Fields.state, Fields.parallel, Reading.succeeds_seq, Reading.succeeds_map]
  refine ⟨⟨⟨⟨succeeds_header hclosed rfl rfl rfl, ?_⟩, succeeds_recovery hclosed rfl rfl⟩,
    succeeds_exit hclosed rfl rfl⟩, ?_⟩
  · exact succeeds_effects hclosed takes_text rfl rfl rfl
  · exact succeeds_member hv ((ih _ (Entries.mem_of_get? hv)).machines
      (hbranches _ (by simp)) (hbranches _ (by simp)) (hfits.member hv))

theorem succeeds_concurrency (hclosed : Accepts target (.closed known) (.obj members))
    (hinner : Entries.get? known "MaxConcurrency" = some Shape.count)
    (hfits : ConcurrencyFits .state (.obj members)) :
    (optionalPart (Part.ofMembers members) "MaxConcurrency" readWord).Succeeds := by
  refine optionalPart_succeeds.mpr fun v hv => ?_
  have haccepts := accepts_member hclosed hv hinner
  simp only [Shape.count, accepts_inner, List.forall_mem_cons, accepts_type] at haccepts
  obtain ⟨hwhole, hleast, -⟩ := haccepts
  cases v with
  | num n =>
      rw [accepts_minimum] at hleast
      have hnonneg : 0 ≤ n.value := by
        simpa using Number.le_value_of_ltNat hleast
      obtain ⟨x, hx, -⟩ := Number.exists_word hwhole hnonneg (hfits.member hv [] n rfl rfl)
      exact exists_readOptional ⟨x, by rw [readWord, hx]⟩
  | _ => cases hwhole

theorem succeeds_map {m : Entries Json}
    (haccepts : Accepts (Shape.state marker) Shape.map (.obj m))
    (hfits : ConcurrencyFits .state (.obj m)) (ih : ∀ entry ∈ m, Taken marker entry.2) :
    (Fields.state (Part.ofMembers m) .map).Succeeds := by
  have hclosed := closed_of_accepts haccepts
  obtain ⟨v, hv⟩ := Entries.mem_keys_iff_get?.mp
    (present_of_accepts haccepts "Iterator" List.mem_cons_self)
  simp only [Fields.state, Fields.mapOver, Reading.succeeds_seq, Reading.succeeds_map]
  refine ⟨⟨⟨⟨⟨⟨succeeds_header hclosed rfl rfl rfl, ?_⟩, ?_⟩, ?_⟩,
    succeeds_recovery hclosed rfl rfl⟩, succeeds_exit hclosed rfl rfl⟩, ?_⟩
  · exact succeeds_optionalPart hclosed rfl takes_path
  · exact succeeds_concurrency hclosed rfl hfits
  · exact succeeds_effects hclosed takes_path rfl rfl rfl
  · exact succeeds_member hv ((ih _ (Entries.mem_of_get? hv)).machine
      (accepts_member hclosed hv rfl) (hfits.member hv))

theorem succeeds_state {kind : Kind}
    (hshape : Accepts (Shape.state marker) (Shape.ofKind marker kind) (.obj members))
    (hfits : ConcurrencyFits .state (.obj members))
    (ih : ∀ entry ∈ members, Taken marker entry.2) :
    (Fields.state (Part.ofMembers members) kind).Succeeds := by
  cases kind with
  | pass => exact Reading.succeeds_map.mpr (succeeds_pass hshape)
  | succeed =>
      exact Reading.succeeds_map.mpr (succeeds_header (closed_of_accepts hshape) rfl rfl rfl)
  | fail => exact Reading.succeeds_map.mpr (succeeds_fail hshape)
  | wait => exact Reading.succeeds_map.mpr (succeeds_wait hshape)
  | task | interaction => exact Reading.succeeds_map.mpr (succeeds_task hshape)
  | choice => exact Reading.succeeds_map.mpr (succeeds_choice hshape)
  | parallel => exact succeeds_parallel hshape hfits ih
  | map => exact succeeds_map hshape hfits ih

/-- A state that names its kind is read by the fields of that kind. -/
theorem ofMembers_of_kind {kind : Kind}
    (hkind : Entries.get? members "Type" = some (.str kind.name)) :
    State.ofMembers (Part.ofMembers members) =
      (Fields.state (Part.ofMembers members) kind).toExcept := by
  rw [State.ofMembers, get?_ofMembers, hkind]
  simp only [Option.map_some, value_ofJson, Kind.ofMember, Shape.ofName?_name]
  rfl

theorem exists_state {kind : Kind} (hkind : Entries.get? members "Type" = some (.str kind.name))
    (hsucceeds : (Fields.state (Part.ofMembers members) kind).Succeeds) :
    ∃ s, State.ofJson (.obj members) = .ok s := by
  change ∃ s, State.ofMembers (Part.ofMembers members) = .ok s
  rw [ofMembers_of_kind hkind]
  exact Reading.exists_toExcept_eq_ok.mpr hsucceeds

theorem taken_scalar {v : Json} (hitems : ∀ items, v ≠ .arr items)
    (hmembers : ∀ members, v ≠ .obj members) : Taken marker v := by
  refine ⟨fun haccepts => ?_, fun haccepts => ?_, fun haccepts => ?_, fun htype => ?_⟩
  · obtain ⟨m, rfl⟩ := Shape.exists_obj_of_accepts haccepts
    exact absurd rfl (hmembers m)
  · obtain ⟨m, rfl⟩ := exists_obj_of_type (accepts_inner.mp haccepts _ List.mem_cons_self)
    exact absurd rfl (hmembers m)
  · obtain ⟨m, rfl⟩ := exists_obj_of_type (accepts_inner.mp haccepts _ List.mem_cons_self)
    exact absurd rfl (hmembers m)
  · rw [accepts_type] at htype
    cases v with
    | arr items => exact absurd rfl (hitems items)
    | _ => cases htype

theorem taken_arr {items : List Json} (ih : ∀ item ∈ items, Taken marker item) :
    Taken marker (.arr items) := by
  refine ⟨fun haccepts => ?_, fun haccepts => ?_, fun haccepts => ?_,
    fun _ haccepts hfits => ?_⟩
  · obtain ⟨m, heq⟩ := Shape.exists_obj_of_accepts haccepts
    cases heq
  · obtain ⟨m, heq⟩ := exists_obj_of_type (accepts_inner.mp haccepts _ List.mem_cons_self)
    cases heq
  · obtain ⟨m, heq⟩ := exists_obj_of_type (accepts_inner.mp haccepts _ List.mem_cons_self)
    cases heq
  · change ∃ ms, ((Part.ofItems items).mapM fun part => part.machine.get) = .ok ms
    rw [accepts_eachItem] at haccepts
    rw [ofItems_eq]
    refine exists_mapM_eq_ok fun part hpart => ?_
    obtain ⟨item, hitem, rfl⟩ := List.mem_map.mp hpart
    exact (ih item hitem).machine (haccepts item hitem) (hfits.item hitem)

theorem exists_states (hdistinct : Entries.Distinct members)
    (haccepts : Shape.states.Accepts (Shape.state marker) (.obj members))
    (hfits : ConcurrencyFits .states (.obj members))
    (ih : ∀ entry ∈ members, Taken marker entry.2) :
    ∃ own, (Part.ofJson (.obj members)).states.get = .ok own := by
  have hmembers := accepts_inner.mp haccepts (.eachMember .recur) (by simp)
  rw [accepts_eachMember] at hmembers
  change ∃ own, ((Part.ofMembers members).mapM fun entry =>
    return (entry.1, ← entry.2.state.get)) = .ok own
  rw [ofMembers_eq]
  refine exists_mapM_eq_ok fun part hpart => ?_
  obtain ⟨entry, hentry, rfl⟩ := List.mem_map.mp hpart
  have hget := Entries.get?_of_mem hdistinct hentry
  obtain ⟨s, hs⟩ := (ih entry hentry).state (hmembers entry hentry) (hfits.member hget)
  exact ⟨(entry.1, s), by rw [hs]; rfl⟩

theorem succeeds_machine
    (haccepts : Shape.machine.Accepts (Shape.state marker) (.obj members))
    (hfits : ConcurrencyFits .machine (.obj members))
    (ih : ∀ entry ∈ members, Taken marker entry.2) :
    (Fields.machine (Part.ofMembers members)).Succeeds := by
  simp only [Shape.machine, accepts_inner, List.forall_mem_cons] at haccepts
  obtain ⟨-, hrequired, hclosed, -⟩ := haccepts
  rw [accepts_required] at hrequired
  obtain ⟨v, hv⟩ := Entries.mem_keys_iff_get?.mp (hrequired "States" (by simp))
  simp only [Fields.machine, Reading.succeeds_seq, Reading.succeeds_map, Reading.succeeds_pure,
    and_true]
  refine ⟨⟨?_, ?_⟩, ?_⟩
  · exact succeeds_optionalPart hclosed rfl takes_text
  · exact succeeds_requiredPart hclosed (hrequired _ (by simp)) rfl takes_stateName
  · exact succeeds_member hv ((ih _ (Entries.mem_of_get? hv)).states
      (accepts_member hclosed hv rfl) (hfits.member hv))

theorem taken_obj (hdistinct : Entries.Distinct members)
    (ih : ∀ entry ∈ members, Taken marker entry.2) : Taken marker (.obj members) := by
  refine ⟨fun haccepts hfits => ?_, fun haccepts hfits => ?_, fun haccepts hfits => ?_,
    fun htype => ?_⟩
  · obtain ⟨kind, hkind, hshape⟩ := Shape.accepts_state_iff.mp haccepts
    exact exists_state hkind (succeeds_state hshape hfits ih)
  · exact exists_states hdistinct haccepts hfits ih
  · exact Reading.exists_toExcept_eq_ok.mpr (succeeds_machine haccepts hfits ih)
  · cases accepts_type.mp htype

theorem taken (marker : String) {v : Json} (hwell : v.WellFormed) : Taken marker v := by
  induction v using Json.inductionOn with
  | null | bool _ | num _ | str _ => exact taken_scalar (by simp) (by simp)
  | arr items ih =>
      exact taken_arr fun item hitem => ih item hitem (wellFormed_of_mem_items hwell hitem)
  | obj members ih =>
      exact taken_obj hwell.1 fun entry hentry =>
        ih entry hentry (wellFormed_of_mem hwell.2 hentry)

end StateFlow.Playbook
