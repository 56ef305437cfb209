import StateFlow.Proofs.CompiledShape
import StateFlow.Proofs.JsonText
import StateFlow.Proofs.Taken

/-!
# Playbooks of the right shape are read without loss

A playbook of the right shape is read as a document (`exists_document`), and the document is what
the playbook is rewritten to (`rewritten_document`); so the document says the same as the playbook
(`ofJson_restated`).  A failure handler of a kind that cannot handle failures has no shape to be
relied on.
-/

namespace StateFlow.Playbook

open StateFlow.Json StateFlow.Schema

variable {marker : String} {target : Schema} {members : Entries Json}

/-! ## Decorators -/

def handlerKinds : List Kind := [.task, .interaction, .parallel]

/-- A handler that names such a kind has its shape. -/
theorem shape_of_handler {v : Json} {kind : Kind} {shape : Schema}
    (haccepts : Accepts target Shape.handler v) (hname : v.get? "Type" = some (.str kind.name))
    (hshape : (kind, shape) ∈ [(Kind.task, Shape.task .optional),
      (.interaction, Shape.task .optional), (.parallel, Shape.parallel .optional)]) :
    ∃ members, v = .obj members ∧ Entries.get? members "Type" = some (.str kind.name) ∧
      Accepts target shape (.obj members) := by
  cases v with
  | obj members =>
      obtain ⟨other, hother, hshapes⟩ := Shape.accepts_byKind_iff.mp haccepts
      cases Shape.kind_unique hother hname
      exact ⟨members, rfl, hother, hshapes shape hshape⟩
  | _ => cases hname

theorem exists_interaction {v : Json} (haccepts : Accepts target Shape.handler v)
    (hname : v.get? "Type" = some (.str Kind.interaction.name)) :
    ∃ s, State.ofJson v = .ok s := by
  obtain ⟨members, rfl, hkind, hshape⟩ := shape_of_handler haccepts hname
    (List.mem_cons_of_mem _ List.mem_cons_self)
  exact exists_state hkind (Reading.succeeds_map.mpr (succeeds_task hshape))

theorem exists_handler {v : Json} {kind : Kind} (hwell : v.WellFormed)
    (haccepts : Accepts (Shape.state marker) Shape.handler v)
    (hfits : ConcurrencyFits .state v) (hkind : kind ∈ handlerKinds)
    (hname : v.get? "Type" = some (.str kind.name)) : ∃ s, State.ofJson v = .ok s := by
  simp only [handlerKinds, List.mem_cons, List.not_mem_nil, or_false] at hkind
  rcases hkind with rfl | rfl | rfl
  · obtain ⟨members, rfl, hkind, hshape⟩ := shape_of_handler haccepts hname List.mem_cons_self
    exact exists_state hkind (Reading.succeeds_map.mpr (succeeds_task hshape))
  · exact exists_interaction haccepts hname
  · obtain ⟨members, rfl, hkind, hshape⟩ := shape_of_handler haccepts hname
      (List.mem_cons_of_mem _ (List.mem_cons_of_mem _ List.mem_cons_self))
    exact exists_state hkind (succeeds_parallel hshape hfits fun entry hentry =>
      taken marker (wellFormed_of_mem hwell.2 hentry))

/-- A failure handler, where there is one, is of a kind that has a shape. -/
def HandlerShaped (decorators : Json) : Prop :=
  ∀ h, decorators.get? "TaskFailureHandler" = some h →
    ∃ kind ∈ handlerKinds, h.get? "Type" = some (.str kind.name)

theorem closed_of_decorators {v : Json} (haccepts : Shape.decorators.Accepts target v) :
    ∃ m, v = .obj m ∧ Accepts target (.closed [("TaskFailureHandler", .schema Shape.handler),
      ("DisableDefaultRetry", Shape.disableDefaultRetry)]) (.obj m) := by
  rw [Shape.decorators, accepts_inner, List.forall_mem_cons, List.forall_mem_singleton] at haccepts
  obtain ⟨m, rfl⟩ := exists_obj_of_type haccepts.1
  exact ⟨m, rfl, haccepts.2⟩

theorem exists_decorators {v : Json} (hwell : v.WellFormed)
    (haccepts : Shape.decorators.Accepts (Shape.state marker) v)
    (hfits : ConcurrencyFits .decorators v) (hshaped : HandlerShaped v) :
    ∃ d, Decorators.ofJson v = .ok d := by
  obtain ⟨m, rfl, hclosed⟩ := closed_of_decorators haccepts
  refine Reading.exists_toExcept_eq_ok.mpr ?_
  simp only [Reading.succeeds_seq, Reading.succeeds_map]
  refine ⟨Members.optional_succeeds.mpr fun h hh => exists_readOptional ?_,
    succeeds_optional hclosed rfl takes_disableDefaultRetry⟩
  obtain ⟨kind, hkind, hname⟩ := hshaped h hh
  exact exists_handler (wellFormed_of_mem hwell.2 (Entries.mem_of_get? hh))
    (accepts_member hclosed hh rfl) (hfits.member hh) hkind hname

theorem rewritten_disableDefaultRetry {slot : Slot} {v : Json} {d : DisableDefaultRetry}
    (hread : DisableDefaultRetry.ofJson v = .ok d)
    (haccepts : Shape.disableDefaultRetry.Accepts target v) : Rewritten slot v d.toJson := by
  obtain ⟨m, rfl, hgives⟩ := readRecord_eq_ok hread
  simp only [Reading.gives_seq, Reading.gives_map, Members.optional_gives] at hgives
  obtain ⟨_, _, ⟨_, hall, rfl⟩, htasks, rfl⟩ := hgives
  have hwrites := (Writes.optional hall fun _ _ _ => rewritten_bool : Writes slot m _ _)
    |>.append (.optional htasks fun _ _ _ => rewritten_texts)
  simp only [Shape.disableDefaultRetry, accepts_inner, List.forall_mem_cons] at haccepts
  exact hwrites.rewritten_obj (by decide) rfl rfl haccepts.2.1

theorem get?_type_of_ofJson {v : Json} {s : State} (hread : State.ofJson v = .ok s) :
    v.get? "Type" = some (.str s.kind.name) := by
  cases v with
  | obj members =>
      obtain ⟨kind, hkind, hgives⟩ := ofMembers_eq_ok hread
      rw [kind_of_gives hgives]
      exact hkind
  | _ => cases hread

theorem rewritten_named_handler {v : Json} {s : State} {kind : Kind}
    (hread : State.ofJson v = .ok s) (haccepts : Accepts (Shape.state marker) Shape.handler v)
    (hkind : kind ∈ handlerKinds) (hname : v.get? "Type" = some (.str kind.name)) :
    Rewritten .state v s.toJson := by
  refine rewritten_handler hread ?_ haccepts
  rw [Shape.kind_unique (get?_type_of_ofJson hread) hname]
  simpa [handlerKinds] using hkind

theorem rewritten_decorators {v : Json} {d : Decorators} (hread : Decorators.ofJson v = .ok d)
    (haccepts : Shape.decorators.Accepts (Shape.state marker) v) (hshaped : HandlerShaped v) :
    Rewritten .decorators v d.toJson := by
  obtain ⟨m, rfl, hclosed⟩ := closed_of_decorators haccepts
  have hgives := Reading.toExcept_eq_ok.mp hread
  simp only [Reading.gives_seq, Reading.gives_map, Members.optional_gives] at hgives
  obtain ⟨_, _, ⟨_, hhandler, rfl⟩, hdisable, rfl⟩ := hgives
  have hrewritten : ∀ h s, Entries.get? m "TaskFailureHandler" = some h → State.ofJson h = .ok s →
      Rewritten .state h s.toJson := by
    intro h s hh hs
    obtain ⟨kind, hkind, hname⟩ := hshaped h hh
    exact rewritten_named_handler hs (accepts_member hclosed hh rfl) hkind hname
  have hwrites := (Writes.optional hhandler hrewritten : Writes .decorators m _ _)
    |>.append (.optional hdisable fun _ _ hv hx =>
      rewritten_disableDefaultRetry hx (accepts_member hclosed hv rfl))
  exact hwrites.rewritten_obj (by decide) rfl rfl hclosed

/-! ## Documents -/

variable {v : Json} (haccepts : Accepts (Shape.state marker) Shape.playbook v)
variable (hshaped : ∀ decorators, v.get? "Decorators" = some decorators → HandlerShaped decorators)

include haccepts hshaped

/-- A playbook of the right shape is read as a document. -/
theorem exists_document (hwell : v.WellFormed) (hfits : ConcurrencyFits .playbook v) :
    ∃ d, Document.ofJson v = .ok d := by
  have hparts := haccepts
  simp only [Shape.playbook, accepts_all, List.forall_mem_cons] at hparts
  obtain ⟨m, rfl⟩ := exists_obj_of_type hparts.1
  have hrequired := accepts_required.mp hparts.2.1
  have hclosed := closed_of_playbook haccepts
  obtain ⟨own, hown⟩ := Entries.mem_keys_iff_get?.mp (hrequired "States" (by simp))
  refine Reading.exists_toExcept_eq_ok.mpr ?_
  simp only [Reading.succeeds_seq, Reading.succeeds_map, Reading.succeeds_pure, and_true]
  refine ⟨⟨⟨⟨?_, ?_⟩, ?_⟩, ?_⟩, ?_⟩
  · exact succeeds_required hclosed (hrequired _ (by simp)) rfl (takes_string List.mem_cons_self)
  · exact succeeds_required hclosed (hrequired _ (by simp)) rfl (takes_string List.mem_cons_self)
  · exact succeeds_required hclosed (hrequired _ (by simp)) rfl takes_stateName
  · have hstates := (taken marker (wellFormed_of_mem hwell.2 (Entries.mem_of_get? hown))).states
    exact Members.required_succeeds.mpr ⟨own, hown,
      hstates (accepts_member hclosed hown rfl) (hfits.member hown)⟩
  · refine Members.optional_succeeds.mpr fun decorators hv => exists_readOptional ?_
    exact exists_decorators (wellFormed_of_mem hwell.2 (Entries.mem_of_get? hv))
      (accepts_member hclosed hv rfl) (hfits.member hv) (hshaped decorators hv)

/-- A document is what its playbook has been rewritten to. -/
theorem rewritten_document {d : Document} (hread : Document.ofJson v = .ok d) :
    Rewritten .playbook v d.toJson := by
  obtain ⟨m, rfl, hfrom⟩ := Document.ofJson_eq_ok hread
  have hclosed := closed_of_playbook haccepts
  have hstates : ∀ w own, Entries.get? m "States" = some w → statesOfJson w = .ok own →
      Rewritten .states w (statesToJson own) :=
    fun w own hw hown => (rereads marker w).states own hown (accepts_member hclosed hw rfl)
  have hwrites := (Writes.required hfrom.name fun _ _ _ => rewritten_string :
      Writes .playbook m _ _)
    |>.append (.required hfrom.comment fun _ _ _ => rewritten_string)
    |>.append (.required hfrom.startAt fun _ _ _ => rewritten_string)
    |>.append (.required hfrom.states hstates)
    |>.append (.optional hfrom.decorators fun w _ hw hx =>
      rewritten_decorators hx (accepts_member hclosed hw rfl) (hshaped w hw))
  refine rewritten_with_others hwrites (by decide) (fun key _ w hw => ?_) ?_
  · obtain ⟨inner, hinner, hw⟩ := accepts_closed.mp hclosed _ (Entries.mem_of_get? hw)
    exact ne_null_of_accepts rfl hinner hw
  · rw [hfrom.extra]
    exact List.Perm.refl _

omit haccepts hshaped

/-! ## Numbers that fit -/

theorem numbers_subset_of_mem {name : String} (hmem : (name, v) ∈ members) :
    v.numbers ⊆ numbersMembers members := by
  induction members with
  | nil => cases hmem
  | cons entry rest ih =>
      rw [numbersMembers]
      rcases List.mem_cons.mp hmem with rfl | hrest
      · exact List.subset_append_left _ _
      · exact List.subset_append_of_subset_right _ (ih hrest)

theorem numbers_subset_of_mem_items {items : List Json} (hmem : v ∈ items) :
    v.numbers ⊆ numbersItems items := by
  induction items with
  | nil => cases hmem
  | cons item rest ih =>
      rw [numbersItems]
      rcases List.mem_cons.mp hmem with rfl | hrest
      · exact List.subset_append_left _ _
      · exact List.subset_append_of_subset_right _ (ih hrest)

theorem mem_numbers_of_at? {path : List Segment} {n : Number} (hn : v.at? path = some (.num n)) :
    n ∈ v.numbers := by
  induction path generalizing v with
  | nil =>
      cases hn
      exact List.mem_singleton_self n
  | cons segment path ih =>
      rw [Json.at?, List.foldlM_cons] at hn
      obtain ⟨u, hstep, hu⟩ := Option.bind_eq_some_iff.mp hn
      cases v with
      | obj members =>
          cases segment with
          | key name => exact numbers_subset_of_mem (Entries.mem_of_get? hstep) (ih hu)
          | index i => cases hstep
      | arr items =>
          cases segment with
          | key name => cases hstep
          | index i => exact numbers_subset_of_mem_items (List.mem_of_getElem? hstep) (ih hu)
      | _ => cases segment <;> cases hstep

theorem concurrencyFits_of_numbers {slot : Slot}
    (hnumbers : ∀ n ∈ v.numbers, n.ltNat 0x10000000000000000 = true) : ConcurrencyFits slot v := by
  intro path n _ hn
  have hlt := Number.ltNat_iff.mp (hnumbers n (mem_numbers_of_at? hn))
  exact_mod_cast hlt

/-! ## No loss -/

def whole (negative : Bool) (n : Nat) : Json :=
  ((Binary64.ofDecimal? negative n 0).map fun x => .num (.float x)).getD .null

theorem wellFormed_whole (negative : Bool) (n : Nat) : (whole negative n).WellFormed := by
  rw [whole]
  cases Binary64.ofDecimal? negative n 0 <;> trivial

def wholeNumbers : Json := .obj
  [("StartAt", .str "Each"), ("Comment", .str "Whole numbers"), ("Playbook", .str "Whole"),
    ("TimeoutSeconds", whole false 60),
    ("Decorators", .obj [("TaskFailureHandler", .obj
      [("Resource", .str "ask"), ("Type", .str "Interaction"),
        ("HeartbeatSeconds", whole false 30)])]),
    ("States", .obj
      [("Each", .obj
        [("MaxConcurrency", whole false 4), ("End", .bool true), ("Type", .str "Map"),
          ("Iterator", .obj
            [("States", .obj [("Work", .obj
              [("Retry", .arr [.obj
                [("MaxAttempts", whole true 0), ("IntervalSeconds", whole false 2),
                  ("ErrorEquals", .arr [.str "States.Timeout"])]]),
                ("Parameters", .obj [("MaxAttempts", whole false 2)]),
                ("Type", .str "Task"), ("Resource", .str "work"), ("End", .bool true)])]),
              ("StartAt", .str "Work")])])])]

/-- A playbook of the right shape is read as a document that says the same, as long as its
concurrencies fit words and its failure handler, if there is one, is of a kind that has a shape. -/
theorem ofJson_restated (s : Settings) (v : Json) (hwell : v.WellFormed)
    (hfindings : shapeFindings s v = []) (hfits : ConcurrencyFits .playbook v)
    (hhandler : ∀ h, failureHandlerMember? v = some h →
      ∃ kind ∈ [Kind.task, .interaction, .parallel], h.get? "Type" = some (.str kind.name)) :
    ∃ d, Document.ofJson v = .ok d ∧ Restated .playbook v d.toJson := by
  have haccepts := accepts_of_shapeFindings hfindings
  have hshaped : ∀ decorators, v.get? "Decorators" = some decorators →
      HandlerShaped decorators := by
    intro decorators hdecorators h hh
    exact hhandler h (by rw [failureHandlerMember?, hdecorators, Option.bind_some, hh])
  obtain ⟨d, hread⟩ := exists_document haccepts hshaped hwell hfits
  exact ⟨d, hread, (rewritten_document haccepts hshaped hread).restated hwell hfits⟩

theorem ofJson_restated_wholeNumbers :
    wholeNumbers.WellFormed ∧ shapeFindings .production wholeNumbers = [] ∧
      ∃ d, Document.ofJson wholeNumbers = .ok d ∧ Restated .playbook wholeNumbers d.toJson := by
  have hwell : wholeNumbers.WellFormed := by
    simp [wholeNumbers, wellFormed_whole, Json.WellFormed, Json.WellFormedMembers,
      Json.WellFormedItems, Entries.Distinct]
  have hfindings : shapeFindings .production wholeNumbers = [] := by decide +kernel
  refine ⟨hwell, hfindings, ofJson_restated .production wholeNumbers hwell hfindings
    (concurrencyFits_of_numbers (by decide +kernel)) fun h hh => ?_⟩
  cases hh
  exact ⟨.interaction, by simp, rfl⟩

end StateFlow.Playbook
