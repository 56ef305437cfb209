import StateFlow.Proofs.StateShape

/-!
# Lowering keeps the shape

What a state of the right shape is lowered to has the right shape: its envelopes are objects, its
retry and catch rules are accepted, a Parallel goes on to its merge helper and the helper takes over
its exit.  `shaped_each` says so for the states of a scope, whatever machines they hold.
-/

namespace StateFlow

open StateFlow.Schema StateFlow.Json StateFlow.Playbook StateFlow.Lowering

structure Settings.Shaped (s : Settings) (target : Schema) : Prop where
  retry : ∀ errors, errors ≠ [] →
    Shape.retrier.Accepts target { s.defaultRetry with errorEquals := errors }.toJson
  errors : s.defaultRetry.errorEquals ≠ []
  helpers : ∀ name, Pattern.stateName.accepts (mergeHelperName s name) = true

namespace Lowering.Scheme

variable {target : Schema} {r : Scheme} {ctx : Context} {name : String} {kind : Json}

/-- The catch rules for failures, of a state and of its merge helper, have the right shape where
there are any. -/
def CatchShaped (target : Schema) (r : Scheme) (ctx : Context) (name : String) : Prop :=
  r.catchesFailure ctx name = true →
    Shape.catcher.Accepts target (failureCatch r.settings name).toJson ∧
    Shape.catcher.Accepts target (failureCatch r.settings (mergeHelperName r.settings name)).toJson

theorem catchShaped_of_not_handled (hctx : ctx.failureHandler = false) :
    CatchShaped target r ctx name := by
  intro hcatches
  simp [catchesFailure, hctx] at hcatches

section Shaped

variable (hr : r.rename = id) (hshaped : r.settings.Shaped target)

include hshaped in
theorem accepts_mergeRetry {own : Option (List Retrier)} {disabled : Bool} {rules : List Retrier}
    (hown : ∀ rule ∈ own.getD [], Shape.retrier.Accepts target rule.toJson)
    (hrules : mergeRetry own disabled r.settings.defaultRetry = some rules) :
    (Shape.inner [.type .array, .eachItem Shape.retrier]).Accepts target
      (Json.ofList Retrier.toJson rules) := by
  refine Shape.accepts_list.mpr fun rule hrule => ?_
  rcases mem_mergeRetry hrules hrule with hmem | ⟨errors, hsome, -, rfl⟩
  · exact hown rule hmem
  · exact hshaped.retry errors hsome

include hr

theorem accepts_catchers (hcatch : CatchShaped target r ctx name) {own : Option (List Catcher)}
    {rules : List Catcher} (hown : ∀ rule ∈ own.getD [], Shape.catcher.Accepts target rule.toJson)
    (hrules : r.catchers ctx name own = some rules) :
    (Shape.inner [.type .array, .eachItem Shape.catcher]).Accepts target
      (Json.ofList Catcher.toJson rules) := by
  refine Shape.accepts_list.mpr fun rule hrule => ?_
  rcases mem_catchers hr hrules hrule with hmem | ⟨hcatches, rfl⟩
  · exact hown rule hmem
  · exact (hcatch hcatches).1

include hshaped

theorem accepts_task {t : Task} (hcatch : CatchShaped target r ctx name)
    (hshape : Accepts target (Shape.task .required) (.obj (("Type", kind) :: t.entries))) :
    Accepts target (Shape.task .required)
      (.obj (("Type", .str Kind.task.name) :: (r.task ctx name t).entries)) := by
  obtain ⟨-, hfits, hexit⟩ := Shape.accepts_task.mp hshape
  obtain ⟨hretry, hcatchers⟩ :=
    Shape.accepts_recovery rfl rfl fun entry hentry => hfits entry (t.recovery_subset hentry)
  refine Shape.accepts_task.mpr ⟨Or.inl rfl, fun entry hentry => ?_, ?_⟩
  · rcases mem_entries_task hr hentry with
      hown | ⟨v, -, rfl⟩ | ⟨rules, hrules, rfl⟩ | ⟨rules, hrules, rfl⟩
    · exact hfits entry hown
    · exact ⟨_, rfl, Shape.accepts_anyObject⟩
    · exact ⟨_, rfl, accepts_mergeRetry hshaped hretry hrules⟩
    · exact ⟨_, rfl, accepts_catchers hr hcatch hcatchers hrules⟩
  · simpa [task, work, exit_eq hr] using hexit

theorem accepts_interaction {t : Task} (hcatch : CatchShaped target r ctx name)
    (hshape : Accepts target (Shape.task .required) (.obj (("Type", kind) :: t.entries))) :
    Accepts target (Shape.task .required)
      (.obj (("Type", .str Kind.task.name) :: (r.interaction ctx name t).entries)) := by
  obtain ⟨-, hfits, hexit⟩ := Shape.accepts_task.mp hshape
  obtain ⟨hretry, hcatchers⟩ :=
    Shape.accepts_recovery rfl rfl fun entry hentry => hfits entry (t.recovery_subset hentry)
  refine Shape.accepts_task.mpr ⟨Or.inl rfl, fun entry hentry => ?_, ?_⟩
  · rcases mem_entries_interaction hr hentry with
      hown | rfl | rfl | ⟨rules, hrules, rfl⟩ | ⟨rules, hrules, rfl⟩
    · exact hfits entry hown
    · exact ⟨_, rfl, Shape.accepts_text⟩
    · exact ⟨_, rfl, Shape.accepts_anyObject⟩
    · exact ⟨_, rfl, accepts_mergeRetry hshaped hretry hrules⟩
    · exact ⟨_, rfl, accepts_catchers hr hcatch hcatchers hrules⟩
  · simpa [interaction, work, exit_eq hr] using hexit

theorem accepts_helper {p : Parallel} {branches : Json} (hcatch : CatchShaped target r ctx name)
    (hshape : Accepts target (Shape.parallel .required)
      (.obj (("Type", kind) :: p.entries branches))) :
    Accepts target (Shape.task .required)
      (.obj (("Type", .str Kind.task.name) :: (r.helper ctx name p).entries)) := by
  obtain ⟨-, hfits, hexit⟩ := Shape.accepts_parallel.mp hshape
  refine Shape.accepts_task.mpr ⟨Or.inl rfl, fun entry hentry => ?_, ?_⟩
  · rcases mem_entries_helper hr hentry with rfl | rfl | ⟨hcatches, rfl⟩ | hown
    · exact ⟨_, rfl, Shape.accepts_text⟩
    · refine ⟨_, rfl, Shape.accepts_list.mpr ?_⟩
      simpa using hshaped.retry _ hshaped.errors
    · refine ⟨_, rfl, Shape.accepts_list.mpr ?_⟩
      simpa using (hcatch hcatches).2
    · rcases Exit.mem_continuation hown with rfl | ⟨next, rfl, hnext⟩
      · exact ⟨_, rfl, Shape.accepts_ending⟩
      · obtain ⟨inner, hinner, haccepts⟩ := hfits _ (p.exit_subset branches hnext)
        cases hinner
        exact ⟨_, rfl, haccepts⟩
  · rw [helper_exit hr]
    exact p.exit.decided_continuation

theorem accepts_parallel {p : Parallel} {own branches : Json}
    (hcatch : CatchShaped target r ctx name)
    (hbranches : (Shape.inner [.type .array, .minItems 1, .eachItem Shape.machine]).Accepts target
      branches)
    (hshape : Accepts target (Shape.parallel .required) (.obj (("Type", kind) :: p.entries own))) :
    Accepts target (Shape.parallel .required)
      (.obj (("Type", kind) :: (r.parallel ctx name p).entries branches)) := by
  obtain ⟨hkind, hfits, hexit⟩ := Shape.accepts_parallel.mp hshape
  obtain ⟨-, hcatchers⟩ :=
    Shape.accepts_recovery rfl rfl fun entry hentry => hfits entry (p.recovery_subset own hentry)
  refine Shape.accepts_parallel.mpr ⟨hkind, fun entry hentry => ?_, ?_⟩
  · rcases mem_entries_parallel own hentry with hown | rfl | rfl | ⟨rules, hrules, rfl⟩
    · exact hfits entry hown
    · exact ⟨_, rfl, hbranches⟩
    · exact ⟨_, rfl, Shape.accepts_stateName.mpr (hshaped.helpers name)⟩
    · exact ⟨_, rfl, accepts_catchers hr hcatch hcatchers hrules⟩
  · simp [parallel, Exit.Decided]

end Shaped

/-! ## Scopes -/

theorem machines_ne_nil {ms : List Machine} (hsome : ms ≠ []) : r.machines ms ≠ [] := by
  cases ms with
  | nil => exact absurd rfl hsome
  | cons m rest => simp [machines]

mutual

/-- What a state is lowered to has the right shape if the state has it. -/
theorem shaped_state {marker : String} (hr : r.rename = id)
    (hshaped : r.settings.Shaped (Shape.state marker)) (ctx : Context) (name : String)
    (hname : Pattern.stateName.accepts name = true) : (st : State) →
    (st.kind ∈ catchingKinds → CatchShaped (Shape.state marker) r ctx name) →
    Accepts (Shape.state marker) (Shape.state marker) st.toJson →
      ∀ out ∈ r.state ctx name st, Shape.Shaped (Shape.state marker) out
  | .pass s => by
      intro _ hshape
      rw [state, exit_eq hr, List.forall_mem_singleton]
      exact ⟨hname, hshape⟩
  | .succeed _ | .fail _ => by
      intro _ hshape
      rw [state, List.forall_mem_singleton]
      exact ⟨hname, hshape⟩
  | .wait s => by
      intro _ hshape
      rw [state, exit_eq hr, List.forall_mem_singleton]
      exact ⟨hname, hshape⟩
  | .task t => by
      intro hcatching hshape
      have hcatch := hcatching (by simp [State.kind, catchingKinds])
      rw [Shape.accepts_toJson] at hshape
      rw [state, List.forall_mem_singleton]
      exact ⟨hname, Shape.accepts_toJson.mpr (accepts_task hr hshaped hcatch hshape)⟩
  | .interaction t => by
      intro hcatching hshape
      have hcatch := hcatching (by simp [State.kind, catchingKinds])
      rw [Shape.accepts_toJson] at hshape
      rw [state, List.forall_mem_singleton]
      exact ⟨hname, Shape.accepts_toJson.mpr (accepts_interaction hr hshaped hcatch hshape)⟩
  | .choice c => by
      intro _ hshape
      rw [state, choice_eq hr, List.forall_mem_singleton]
      exact ⟨hname, hshape⟩
  | .parallel p branches => by
      intro hcatching hshape
      have hcatch := hcatching (by simp [State.kind, catchingKinds])
      rw [Shape.accepts_toJson] at hshape
      rw [state, List.forall_mem_cons, List.forall_mem_singleton]
      refine ⟨⟨hname, Shape.accepts_toJson.mpr ?_⟩,
        hshaped.helpers name, Shape.accepts_toJson.mpr (accepts_helper hr hshaped hcatch hshape)⟩
      obtain ⟨hsome, hbranches⟩ := Shape.branches_of_accepts hshape
      exact accepts_parallel hr hshaped hcatch (Shape.accepts_branches.mpr
        ⟨machines_ne_nil hsome, shaped_machines hr hshaped branches hbranches⟩) hshape
  | .map m iterator => by
      intro _ hshape
      rw [Shape.accepts_toJson] at hshape
      rw [state, mapOver_eq hr, List.forall_mem_singleton]
      exact ⟨hname, Shape.accepts_toJson.mpr (Shape.accepts_map_congr hshape
        (shaped_machine hr hshaped iterator (Shape.iterator_of_accepts hshape)))⟩

theorem shaped_machine {marker : String} (hr : r.rename = id)
    (hshaped : r.settings.Shaped (Shape.state marker)) : (m : Machine) →
    Shape.machine.Accepts (Shape.state marker) m.toJson →
      Shape.machine.Accepts (Shape.state marker) (r.machine m).toJson
  | ⟨comment, startAt, own, extra⟩, hshape => by
      rw [Shape.accepts_machine_toJson] at hshape ⊢
      obtain ⟨hstart, hown, hextra⟩ := hshape
      refine ⟨?_, fun entry hentry => ?_, ?_⟩
      · rw [machine, hr]
        exact hstart
      · rw [machine] at hentry
        exact shaped_each hr hshaped {} own hown (fun _ _ _ => catchShaped_of_not_handled rfl)
          entry (Entries.mem_of_mem_ofPairs hentry)
      · rw [machine]
        exact hextra

theorem shaped_machines {marker : String} (hr : r.rename = id)
    (hshaped : r.settings.Shaped (Shape.state marker)) : (ms : List Machine) →
    (∀ m ∈ ms, Shape.machine.Accepts (Shape.state marker) m.toJson) →
      ∀ m ∈ r.machines ms, Shape.machine.Accepts (Shape.state marker) m.toJson
  | [], _ => by simp [machines]
  | m :: rest, hshape => by
      rw [List.forall_mem_cons] at hshape
      rw [machines, List.forall_mem_cons]
      exact ⟨shaped_machine hr hshaped m hshape.1, shaped_machines hr hshaped rest hshape.2⟩

theorem shaped_each {marker : String} (hr : r.rename = id)
    (hshaped : r.settings.Shaped (Shape.state marker)) (ctx : Context) :
    (own : List (String × State)) →
    (∀ entry ∈ own, Shape.Shaped (Shape.state marker) entry) →
    (∀ entry ∈ own, entry.2.kind ∈ catchingKinds →
      CatchShaped (Shape.state marker) r ctx entry.1) →
      ∀ out ∈ r.each ctx own, Shape.Shaped (Shape.state marker) out
  | [], _, _ => by simp
  | (name, s) :: rest, hown, hcatch => by
      rw [List.forall_mem_cons] at hown hcatch
      rw [each_cons, List.forall_mem_append]
      exact ⟨shaped_state hr hshaped ctx name hown.1.1 s hcatch.1 hown.1.2,
        shaped_each hr hshaped ctx rest hown.2 hcatch.2⟩

end

end Lowering.Scheme

end StateFlow
