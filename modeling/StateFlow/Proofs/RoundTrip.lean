import StateFlow.Proofs.Taken
import StateFlow.Proofs.Writable

/-!
# Reading what was written

A record that is written and read again is the same record.  `Restores` says so for a part of a
record: wherever the members of an object agree with the written entries on the names of the part,
the part is read back.  Parts are put together as readings are (`Restores.seq`), so the laws follow
the readers member by member.  For states and machines the entries have to be `Writable`; this holds
of all that is read and of all that is compiled (`read_and_compiled_roundTrip`).
-/

namespace StateFlow.Json

open StateFlow.Playbook

variable {α β : Type}

/-! ## Values -/

def Inverts (read : Json → Except Mismatch β) (write : β → Json) (x : β) : Prop :=
  write x ≠ .null ∧ read (write x) = .ok x

theorem inverts_string (x : String) : Inverts readString Json.str x := ⟨by simp, rfl⟩

theorem inverts_bool (x : Bool) : Inverts readBool Json.bool x := ⟨by simp, rfl⟩

theorem inverts_number (x : Number) : Inverts readNumber Json.num x := ⟨by simp, rfl⟩

theorem inverts_any {x : Json} (hx : x ≠ .null) : Inverts readAny id x := ⟨hx, rfl⟩

theorem toWord?_ofWord (x : UInt64) : (Number.ofWord x).toWord? = some x := by
  have hnonneg : ¬ (x.toNat : Int) < 0 := by omega
  simp [Number.ofWord, Number.toWord?, hnonneg]

theorem inverts_word (x : UInt64) : Inverts readWord Json.ofWord x := by
  refine ⟨by simp [Json.ofWord], ?_⟩
  rw [Json.ofWord, readWord, toWord?_ofWord]

theorem inverts_list {read : Json → Except Mismatch β} {write : β → Json} {xs : List β}
    (hitems : ∀ x ∈ xs, read (write x) = .ok x) :
    Inverts (readList read) (Json.ofList write) xs := by
  refine ⟨by simp [Json.ofList], ?_⟩
  rw [Json.ofList, readList, mapM_eq_ok, List.forall₂_map_left_iff, List.forall₂_same]
  exact hitems

theorem inverts_texts (xs : List String) : Inverts (readList readString) texts xs :=
  inverts_list fun x _ => (inverts_string x).2

/-! ## Parts of records -/

/-- A reading finds its result in any members that agree with the written entries on some names. -/
structure Restores (names : List String) (read : Entries Json → Reading α) (x : α)
    (entries : Entries Json) : Prop where
  keys : Entries.keys entries ⊆ names
  gives : ∀ members, (∀ key ∈ names, Entries.get? members key = Entries.get? entries key) →
    (read members).Gives x

namespace Restores

variable {names more : List String} {entries later : Entries Json}

theorem map {read : Entries Json → Reading α} {x : α} (f : α → β)
    (h : Restores names read x entries) :
    Restores names (fun m => f <$> read m) (f x) entries where
  keys := h.keys
  gives members hagree := Reading.gives_map.mpr ⟨x, h.gives members hagree, rfl⟩

/-- Parts of different names are put together.  The names are closed lists, so it can be computed
that they differ. -/
theorem seq {first : Entries Json → Reading (α → β)} {second : Entries Json → Reading α}
    {f : α → β} {x : α} (hfirst : Restores names first f entries)
    (hsecond : Restores more second x later)
    (hnew : (more.all fun key => !names.contains key) = true) :
    Restores (names ++ more) (fun m => first m <*> second m) (f x) (entries ++ later) where
  keys := by
    rw [Entries.keys_append]
    exact List.append_subset.mpr ⟨List.subset_append_of_subset_left _ hfirst.keys,
      List.subset_append_of_subset_right _ hsecond.keys⟩
  gives members hagree := by
    have hapart : ∀ key ∈ more, key ∉ names := by simpa using hnew
    refine Reading.gives_seq.mpr ⟨f, x, hfirst.gives members fun key hkey => ?_,
      hsecond.gives members fun key hkey => ?_, rfl⟩
    · have hnone : Entries.get? later key = none :=
        Entries.get?_eq_none.mpr fun hother => hapart key (hsecond.keys hother) hkey
      rw [hagree key (List.mem_append_left _ hkey), Entries.get?_append, hnone, Option.or_none]
    · have hnone : Entries.get? entries key = none :=
        Entries.get?_eq_none.mpr fun hown => hapart key hkey (hfirst.keys hown)
      rw [hagree key (List.mem_append_right _ hkey), Entries.get?_append, hnone, Option.none_or]

/-- Only what the names stand for matters, not the order of the entries. -/
theorem reorder {read : Entries Json → Reading α} {x : α} (h : Restores names read x entries)
    (hget : ∀ key, Entries.get? later key = Entries.get? entries key) :
    Restores names read x later where
  keys := by
    intro key hkey
    rw [Entries.mem_keys_iff_get?, hget, ← Entries.mem_keys_iff_get?] at hkey
    exact h.keys hkey
  gives members hagree := h.gives members fun key hkey => (hagree key hkey).trans (hget key)

theorem optional {key : String} {read : Json → Except Mismatch β} {write : β → Json}
    {reading : Entries Json → Reading (Option β)} {x : Option β}
    (hreading : ∀ m, MayRead m key read x → (reading m).Gives x)
    (hback : ∀ a ∈ x, Inverts read write a) :
    Restores [key] reading x (optionalEntry key write x) where
  keys := by cases x <;> simp [optionalEntry]
  gives members hagree := by
    have hget := hagree key (List.mem_singleton_self key)
    refine hreading members ?_
    cases x with
    | none => exact Or.inl ⟨hget, rfl⟩
    | some a =>
        have ha := hback a rfl
        refine Or.inr ⟨write a, by simpa [optionalEntry, Entries.get?] using hget, ?_⟩
        rw [readOptional_of_ne_null ha.1, ha.2]
        rfl

theorem required {key : String} {read : Json → Except Mismatch β} {v : Json}
    {reading : Entries Json → Reading β} {x : β}
    (hreading : ∀ m, MustRead m key read x → (reading m).Gives x) (hback : read v = .ok x) :
    Restores [key] reading x [(key, v)] where
  keys := by simp
  gives members hagree := by
    have hget := hagree key (List.mem_singleton_self key)
    exact hreading members ⟨v, by simpa [Entries.get?] using hget, hback⟩

theorem readRecord_eq_ok {name : String} {read : Entries Json → Reading α} {x : α}
    (h : Restores names read x entries) : readRecord name read (.obj entries) = .ok x :=
  Reading.toExcept_eq_ok.mpr (h.gives entries fun _ _ => rfl)

end Restores

end StateFlow.Json

namespace StateFlow.Playbook

open StateFlow.Json

variable {β : Type}

section Parts

variable {read : Json → Except Mismatch β} {write : β → Json}

theorem restores_optional (key : String) (x : Option β) (hback : ∀ a ∈ x, Inverts read write a) :
    Restores [key] (fun m => Members.optional m key (readOptional read)) x
      (optionalEntry key write x) :=
  .optional (fun _ => Members.optional_gives.mpr) hback

theorem restores_required (key : String) {x : β} (hback : read (write x) = .ok x) :
    Restores [key] (fun m => Members.required m key read) x [(key, write x)] :=
  .required (fun _ => Members.required_gives.mpr) hback

theorem restores_optionalPart (key : String) (x : Option β)
    (hback : ∀ a ∈ x, Inverts read write a) :
    Restores [key] (fun m => optionalPart (Part.ofMembers m) key read) x
      (optionalEntry key write x) :=
  .optional (fun _ => optionalPart_gives.mpr) hback

theorem restores_requiredPart (key : String) {x : β} (hback : read (write x) = .ok x) :
    Restores [key] (fun m => requiredPart (Part.ofMembers m) key read) x [(key, write x)] :=
  .required (fun _ => requiredPart_gives.mpr) hback

end Parts

theorem restores_text (key : String) (x : Option String) :
    Restores [key] (fun m => optionalPart (Part.ofMembers m) key readString) x
      (optionalEntry key Json.str x) :=
  restores_optionalPart key x fun a _ => inverts_string a

theorem restores_word (key : String) (x : Option UInt64) :
    Restores [key] (fun m => optionalPart (Part.ofMembers m) key readWord) x
      (optionalEntry key Json.ofWord x) :=
  restores_optionalPart key x fun a _ => inverts_word a

theorem restores_any (key : String) {x : Option Json} (hx : x ≠ some .null) :
    Restores [key] (fun m => optionalPart (Part.ofMembers m) key readAny) x
      (optionalEntry key id x) :=
  restores_optionalPart key x fun _ ha => inverts_any fun hnull => hx (hnull ▸ ha)

/-! ## Records without states -/

theorem inverts_retrier (r : Retrier) : Retrier.ofJson r.toJson = .ok r :=
  (restores_required "ErrorEquals" (inverts_texts r.errorEquals).2).map Retrier.mk
    |>.seq (restores_optional "IntervalSeconds" r.intervalSeconds fun a _ => inverts_word a) rfl
    |>.seq (restores_optional "MaxAttempts" r.maxAttempts fun a _ => inverts_word a) rfl
    |>.seq (restores_optional "BackoffRate" r.backoffRate fun a _ => inverts_number a) rfl
    |>.readRecord_eq_ok

theorem inverts_catcher (c : Catcher) : Catcher.ofJson c.toJson = .ok c :=
  (restores_required "ErrorEquals" (inverts_texts c.errorEquals).2).map Catcher.mk
    |>.seq (restores_optional "ResultPath" c.resultPath fun a _ => inverts_string a) rfl
    |>.seq (restores_required "Next" (inverts_string c.next).2) rfl
    |>.readRecord_eq_ok

theorem restores_header (h : Header) : Restores ["Comment", "InputPath", "OutputPath"]
    (fun m => Fields.header (Part.ofMembers m)) h h.entries :=
  (restores_text "Comment" h.comment).map Header.mk
    |>.seq (restores_text "InputPath" h.inputPath) rfl
    |>.seq (restores_text "OutputPath" h.outputPath) rfl

theorem restores_exit (e : Exit) : Restores ["Next", "End"]
    (fun m => Fields.exit (Part.ofMembers m)) e e.entries :=
  (restores_text "Next" e.next).map Exit.mk
    |>.seq (restores_optionalPart "End" e.isEnd fun a _ => inverts_bool a) rfl

theorem restores_effects {e : Effects} (he : e.Writable) :
    Restores ["Parameters", "ResultSelector", "ResultPath"]
      (fun m => Fields.effects (Part.ofMembers m)) e e.entries :=
  (restores_any "Parameters" he.1).map Effects.mk
    |>.seq (restores_any "ResultSelector" he.2) rfl
    |>.seq (restores_text "ResultPath" e.resultPath) rfl

theorem restores_recovery (r : Recovery) : Restores ["Retry", "Catch"]
    (fun m => Fields.recovery (Part.ofMembers m)) r r.entries :=
  (restores_optionalPart "Retry" r.retry fun _ _ =>
      inverts_list fun x _ => inverts_retrier x).map Recovery.mk
    |>.seq (restores_optionalPart "Catch" r.catchers fun _ _ =>
      inverts_list fun x _ => inverts_catcher x) rfl

/-! ## Members of other names -/

theorem others_append {α : Type} (known : List String) (a b : Entries α) :
    others known (a ++ b) = others known a ++ others known b :=
  List.filter_append ..

theorem others_of_known {α : Type} {known : List String} {m : Entries α}
    (hknown : Entries.keys m ⊆ known) : others known m = [] := by
  refine List.filter_eq_nil_iff.mpr fun entry hentry => ?_
  simpa using hknown (Entries.mem_keys_of_mem hentry)

theorem others_of_unknown {α : Type} {known : List String} {m : Entries α}
    (hunknown : ∀ key ∈ Entries.keys m, key ∉ known) : others known m = m := by
  refine List.filter_eq_self.mpr fun entry hentry => ?_
  simpa using hunknown entry.1 (Entries.mem_keys_of_mem hentry)

/-- Members of other names are found behind the entries of a record. -/
theorem gives_with_others {names : List String}
    {read : Entries Json → Reading (Entries Json → β)} {f : Entries Json → β}
    {entries extra : Entries Json} (h : Restores names read f entries)
    (hextra : ∀ key ∈ Entries.keys extra, key ∉ names) :
    (read (entries ++ extra) <*> pure (others names (entries ++ extra))).Gives (f extra) := by
  refine Reading.gives_seq.mpr ⟨f, extra, h.gives _ fun key hkey => ?_, ?_, rfl⟩
  · have hnone : Entries.get? extra key = none :=
      Entries.get?_eq_none.mpr fun hother => hextra key hother hkey
    rw [Entries.get?_append, hnone, Option.or_none]
  · rw [Reading.gives_pure, others_append, others_of_known h.keys, others_of_unknown hextra,
      List.nil_append]

theorem inverts_rule {r : ChoiceRule} (hr : r.Writable) : ChoiceRule.ofJson r.toJson = .ok r := by
  have hnone : Entries.get? r.condition "Next" = none := Entries.get?_eq_none.mpr hr
  have hothers : others ["Next"] (r.condition ++ [("Next", .str r.next)]) = r.condition := by
    rw [others_append, others_of_unknown, others_of_known, List.append_nil]
    · simp
    · rintro key hkey hnext
      rw [List.mem_singleton.mp hnext] at hkey
      exact hr hkey
  refine Reading.toExcept_eq_ok.mpr ?_
  simp only [Reading.gives_seq, Reading.gives_map, Reading.gives_pure, Members.required_gives]
  refine ⟨_, r.next, ⟨_, hothers, rfl⟩, ⟨.str r.next, ?_, rfl⟩, rfl⟩
  rw [Entries.get?_append, hnone]
  rfl

/-! ## States -/

theorem restores_pass {s : Pass} (hparameters : s.parameters ≠ some .null)
    (hresult : s.result ≠ some .null) :
    Restores ["Comment", "InputPath", "OutputPath", "Parameters", "Result", "ResultPath", "Next",
      "End"] (fun m => Fields.pass (Part.ofMembers m)) s s.entries :=
  (restores_header s.header).map Pass.mk
    |>.seq (restores_any "Parameters" hparameters) rfl
    |>.seq (restores_any "Result" hresult) rfl
    |>.seq (restores_text "ResultPath" s.resultPath) rfl
    |>.seq (restores_exit s.exit) rfl

theorem restores_fail (s : Fail) : Restores ["Comment", "Cause", "Error"]
    (fun m => Fields.fail (Part.ofMembers m)) s s.entries :=
  (restores_text "Comment" s.comment).map Fail.mk
    |>.seq (restores_text "Cause" s.cause) rfl
    |>.seq (restores_text "Error" s.error) rfl

theorem restores_wait {s : Wait} (hseconds : s.seconds ≠ some .null) :
    Restores ["Comment", "InputPath", "OutputPath", "Seconds", "Timestamp", "SecondsPath",
      "TimestampPath", "Next", "End"] (fun m => Fields.wait (Part.ofMembers m)) s s.entries :=
  (restores_header s.header).map Wait.mk
    |>.seq (restores_any "Seconds" hseconds) rfl
    |>.seq (restores_text "Timestamp" s.timestamp) rfl
    |>.seq (restores_text "SecondsPath" s.secondsPath) rfl
    |>.seq (restores_text "TimestampPath" s.timestampPath) rfl
    |>.seq (restores_exit s.exit) rfl

theorem restores_task {s : Task} (heffects : s.effects.Writable) :
    Restores ["Comment", "InputPath", "OutputPath", "Resource", "Parameters", "ResultSelector",
      "ResultPath", "TimeoutSeconds", "TimeoutSecondsPath", "HeartbeatSeconds",
      "HeartbeatSecondsPath", "Retry", "Catch", "Next", "End"]
      (fun m => Fields.task (Part.ofMembers m)) s s.entries :=
  (restores_header s.header).map Task.mk
    |>.seq (restores_requiredPart "Resource" (inverts_string s.resource).2) rfl
    |>.seq (restores_effects heffects) rfl
    |>.seq (restores_word "TimeoutSeconds" s.timeoutSeconds) rfl
    |>.seq (restores_text "TimeoutSecondsPath" s.timeoutSecondsPath) rfl
    |>.seq (restores_word "HeartbeatSeconds" s.heartbeatSeconds) rfl
    |>.seq (restores_text "HeartbeatSecondsPath" s.heartbeatSecondsPath) rfl
    |>.seq (restores_recovery s.recovery) rfl
    |>.seq (restores_exit s.exit) rfl

theorem restores_choice {s : Choice} (hrules : ∀ rule ∈ s.rules, rule.Writable) :
    Restores ["Comment", "InputPath", "OutputPath", "Choices", "Default"]
      (fun m => Fields.choice (Part.ofMembers m)) s s.entries :=
  (restores_header s.header).map Choice.mk
    |>.seq (restores_requiredPart "Choices"
      (inverts_list fun rule hrule => inverts_rule (hrules rule hrule)).2) rfl
    |>.seq (restores_text "Default" s.fallback) rfl

/-- A member may stand in front of others of other names as well as behind them. -/
theorem get?_move {key : String} {v : Json} (front : Entries Json) {back : Entries Json}
    (hkey : key ∉ Entries.keys back) (name : String) :
    Entries.get? (front ++ ((key, v) :: back)) name =
      Entries.get? (front ++ (back ++ [(key, v)])) name := by
  rw [Entries.get?_append, Entries.get?_append, Entries.get?_append, Entries.get?]
  split
  · next heq =>
      subst heq
      rw [Entries.get?_eq_none.mpr hkey]
      simp [Entries.get?]
  · next hne => simp [Entries.get?, hne]

theorem restores_parallel {s : Parallel} {branches : List Machine} {v : Json}
    (heffects : s.effects.Writable) (hback : (Part.ofJson v).machines.get = .ok branches) :
    Restores ["Comment", "InputPath", "OutputPath", "Parameters", "ResultSelector", "ResultPath",
      "Retry", "Catch", "Next", "End", "Branches"]
      (fun m => Fields.state (Part.ofMembers m) .parallel) (.parallel s branches)
      (s.entries v) := by
  have hbranches : Restores ["Branches"]
      (fun m => Members.required (Part.ofMembers m) "Branches" fun part => part.machines.get)
      branches [("Branches", v)] :=
    .required (fun _ => member_gives.mpr) hback
  have hall := (restores_header s.header).map Parallel.mk
    |>.seq (restores_effects heffects) rfl
    |>.seq (restores_recovery s.recovery) rfl
    |>.seq (restores_exit s.exit) rfl
    |>.map State.parallel
    |>.seq hbranches rfl
  -- The branches are read last, but they are written in front of the exit.
  refine hall.reorder fun name => ?_
  have hfree : "Branches" ∉ Entries.keys s.exit.entries := by
    intro hkey
    simpa using (restores_exit s.exit).keys hkey
  have hmove := get?_move (v := v) (s.header.entries ++ s.effects.entries ++ s.recovery.entries)
    hfree name
  simpa [Parallel.entries] using hmove

theorem restores_map {s : MapOver} {iterator : Machine} {v : Json}
    (heffects : s.effects.Writable) (hback : (Part.ofJson v).machine.get = .ok iterator) :
    Restores ["Comment", "InputPath", "OutputPath", "ItemsPath", "MaxConcurrency", "Parameters",
      "ResultSelector", "ResultPath", "Retry", "Catch", "Next", "End", "Iterator"]
      (fun m => Fields.state (Part.ofMembers m) .map) (.map s iterator) (s.entries v) := by
  have hiterator : Restores ["Iterator"]
      (fun m => Members.required (Part.ofMembers m) "Iterator" fun part => part.machine.get)
      iterator [("Iterator", v)] :=
    .required (fun _ => member_gives.mpr) hback
  have hall := (restores_header s.header).map MapOver.mk
    |>.seq (restores_text "ItemsPath" s.itemsPath) rfl
    |>.seq (restores_word "MaxConcurrency" s.maxConcurrency) rfl
    |>.seq (restores_effects heffects) rfl
    |>.seq (restores_recovery s.recovery) rfl
    |>.seq (restores_exit s.exit) rfl
    |>.map State.map
    |>.seq hiterator rfl
  -- The iterator is read last, but it is written in front of three other parts.
  refine hall.reorder fun name => ?_
  have hback : Restores _ _ _ (s.effects.entries ++ (s.recovery.entries ++ s.exit.entries)) :=
    (restores_effects heffects).map Prod.mk
      |>.seq ((restores_recovery s.recovery).map Prod.mk |>.seq (restores_exit s.exit) rfl) rfl
  have hfree : "Iterator" ∉
      Entries.keys (s.effects.entries ++ (s.recovery.entries ++ s.exit.entries)) := by
    intro hkey
    simpa using hback.keys hkey
  have hmove := get?_move (v := v) (s.header.entries
    ++ optionalEntry "ItemsPath" Json.str s.itemsPath
    ++ optionalEntry "MaxConcurrency" Json.ofWord s.maxConcurrency) hfree name
  simpa [MapOver.entries] using hmove

theorem state_of_restores {names : List String} {kind : Kind} {s : State} {entries : Entries Json}
    (h : Restores names (fun m => Fields.state (Part.ofMembers m) kind) s entries)
    (htype : names.contains "Type" = false) :
    (Part.ofJson (.obj (("Type", .str kind.name) :: entries))).state.get = .ok s := by
  have hkind : Entries.get? (("Type", Json.str kind.name) :: entries) "Type" =
      some (.str kind.name) := rfl
  change State.ofMembers (Part.ofMembers (("Type", .str kind.name) :: entries)) = .ok s
  rw [ofMembers_of_kind hkind]
  refine Reading.toExcept_eq_ok.mpr (h.gives _ fun key hkey => ?_)
  rw [Entries.get?, if_neg]
  rintro rfl
  rw [List.contains_iff_mem.mpr hkey] at htype
  cases htype

/-- A machine is read back if its states are. -/
theorem machine_of_states {comment : Option String} {startAt : String} {own : Entries State}
    {extra : Entries Json} (hothers : ∀ key ∈ Entries.keys extra, key ∉ Machine.knownMembers)
    (hback : (Part.ofJson (statesToJson own)).states.get = .ok own) :
    (Part.ofJson (Machine.toJson ⟨comment, startAt, own, extra⟩)).machine.get =
      .ok ⟨comment, startAt, own, extra⟩ := by
  have hstates : Restores ["States"]
      (fun m => Members.required (Part.ofMembers m) "States" fun part => part.states.get)
      own [("States", statesToJson own)] :=
    .required (fun _ => member_gives.mpr) hback
  have hknown := (restores_text "Comment" comment).map Machine.mk
    |>.seq (restores_requiredPart "StartAt" (inverts_string startAt).2) rfl
    |>.seq hstates rfl
  rw [List.append_assoc (optionalEntry _ _ _)] at hknown
  have hgives := gives_with_others hknown hothers
  rw [← values_others] at hgives
  exact Reading.toExcept_eq_ok.mpr hgives

mutual

theorem state_roundTrip : (s : State) → s.Writable → (Part.ofJson s.toJson).state.get = .ok s
  | .pass _, .pass hparameters hresult =>
      state_of_restores ((restores_pass hparameters hresult).map State.pass) rfl
  | .succeed h, _ => state_of_restores ((restores_header h).map State.succeed) rfl
  | .fail s, _ => state_of_restores ((restores_fail s).map State.fail) rfl
  | .wait _, .wait hseconds => state_of_restores ((restores_wait hseconds).map State.wait) rfl
  | .task _, .task heffects => state_of_restores ((restores_task heffects).map State.task) rfl
  | .interaction _, .interaction heffects =>
      state_of_restores ((restores_task heffects).map State.interaction) rfl
  | .choice _, .choice hrules => state_of_restores ((restores_choice hrules).map State.choice) rfl
  | .parallel _ ms, .parallel heffects hmachines =>
      state_of_restores (restores_parallel heffects (machines_roundTrip ms hmachines)) rfl
  | .map _ m, .map heffects hmachine =>
      state_of_restores (restores_map heffects (machine_roundTrip m hmachine)) rfl

theorem machine_roundTrip : (m : Machine) → m.Writable →
    (Part.ofJson m.toJson).machine.get = .ok m
  | ⟨_, _, own, _⟩, .mk hstates hothers =>
      machine_of_states hothers (states_roundTrip own hstates)

theorem machines_roundTrip : (ms : List Machine) → (∀ m ∈ ms, m.Writable) →
    (Part.ofJson (.arr (Machine.listToJson ms))).machines.get = .ok ms
  | [], _ => rfl
  | m :: rest, hall => by
      rw [List.forall_mem_cons] at hall
      have hrest := machines_roundTrip rest hall.2
      rw [machines_arr_eq_ok] at hrest ⊢
      exact .cons (machine_roundTrip m hall.1) hrest

theorem states_roundTrip : (own : List (String × State)) → (∀ entry ∈ own, entry.2.Writable) →
    (Part.ofJson (statesToJson own)).states.get = .ok own
  | [], _ => rfl
  | (name, s) :: rest, hall => by
      rw [List.forall_mem_cons] at hall
      have hrest := states_roundTrip rest hall.2
      rw [statesToJson, states_obj_eq_ok] at hrest ⊢
      exact .cons ⟨rfl, state_roundTrip s hall.1⟩ hrest

end

/-! ## Documents -/

theorem inverts_disableDefaultRetry (d : DisableDefaultRetry) :
    Inverts DisableDefaultRetry.ofJson DisableDefaultRetry.toJson d :=
  ⟨by simp [DisableDefaultRetry.toJson],
    (restores_optional "all" d.all fun a _ => inverts_bool a).map DisableDefaultRetry.mk
      |>.seq (restores_optional "tasks" d.tasks fun a _ => inverts_texts a) rfl
      |>.readRecord_eq_ok⟩

theorem inverts_decorators {d : Decorators}
    (hhandler : ∀ handler ∈ d.taskFailureHandler, handler.Writable) :
    Inverts Decorators.ofJson Decorators.toJson d := by
  have hstate : ∀ handler ∈ d.taskFailureHandler, Inverts State.ofJson State.toJson handler := by
    intro handler hmem
    exact ⟨by simp [State.toJson], state_roundTrip handler (hhandler handler hmem)⟩
  refine ⟨by simp [Decorators.toJson], ?_⟩
  exact (restores_optional "TaskFailureHandler" d.taskFailureHandler hstate).map Decorators.mk
    |>.seq (restores_optional "DisableDefaultRetry" d.disableDefaultRetry fun a _ =>
      inverts_disableDefaultRetry a) rfl
    |>.readRecord_eq_ok

theorem Document.roundTrip {d : Document} (hd : d.Writable) : Document.ofJson d.toJson = .ok d := by
  have hdecorators : ∀ decorators ∈ d.decorators,
      Inverts Decorators.ofJson Decorators.toJson decorators := by
    intro decorators hmem
    refine inverts_decorators fun handler hhandler => hd.handler handler ?_
    exact Option.bind_eq_some_iff.mpr ⟨decorators, hmem, hhandler⟩
  have hstates : statesOfJson (statesToJson d.states) = .ok d.states :=
    states_roundTrip d.states hd.states
  have hknown := (restores_required "Playbook" (inverts_string d.name).2).map Document.mk
    |>.seq (restores_required "Comment" (inverts_string d.comment).2) rfl
    |>.seq (restores_required "StartAt" (inverts_string d.startAt).2) rfl
    |>.seq (restores_required "States" hstates) rfl
    |>.seq (restores_optional "Decorators" d.decorators hdecorators) rfl
  exact Reading.toExcept_eq_ok.mpr (gives_with_others hknown hd.others)

end StateFlow.Playbook

namespace StateFlow

open StateFlow.Json StateFlow.Playbook StateFlow.Lowering

theorem Definition.roundTrip {c : Definition} (hstates : ∀ entry ∈ c.states, entry.2.Writable)
    (hothers : ∀ key ∈ Entries.keys c.extra, key ∉ Machine.knownMembers) :
    Definition.ofJson c.toJson = .ok c := by
  have hget : ∀ key ∈ Machine.knownMembers, ∀ known : Entries Json,
      Entries.get? (c.extra ++ known) key = Entries.get? known key := by
    intro key hkey known
    have hnone : Entries.get? c.extra key = none :=
      Entries.get?_eq_none.mpr fun hother => hothers key hother hkey
    rw [Entries.get?_append, hnone, Option.none_or]
  have hextra : others Machine.knownMembers (c.extra ++ [("Comment", .str c.comment),
      ("StartAt", .str c.startAt), ("States", statesToJson c.states)]) = c.extra := by
    rw [others_append, others_of_unknown hothers, others_of_known, List.append_nil]
    simp [Machine.knownMembers]
  refine Reading.toExcept_eq_ok.mpr ?_
  simp only [Reading.gives_seq, Reading.gives_map, Reading.gives_pure, Members.required_gives]
  refine ⟨_, _, ⟨_, _, ⟨_, _, ⟨_, hextra, rfl⟩, ⟨.str c.comment, ?_, rfl⟩, rfl⟩,
    ⟨.str c.startAt, ?_, rfl⟩, rfl⟩,
    ⟨statesToJson c.states, ?_, states_roundTrip c.states hstates⟩, rfl⟩
  · rw [hget _ (by simp [Machine.knownMembers])]
    rfl
  · rw [hget _ (by simp [Machine.knownMembers])]
    rfl
  · rw [hget _ (by simp [Machine.knownMembers])]
    rfl

/-- A playbook that can be read is the same document when it is written and read again, whether or
not it has the shape of a playbook, and so is the definition that it compiles to. -/
theorem read_and_compiled_roundTrip (s : Settings) (options : Options) (v : Json) :
    (∀ d, Document.ofJson v = .ok d → Document.ofJson d.toJson = .ok d) ∧
      ∀ c, compile s options v = .ok c →
        Definition.ofJson c.definition.toJson = .ok c.definition := by
  refine ⟨fun d hread => Document.roundTrip (Document.writable_of_ofJson hread), fun c hok => ?_⟩
  obtain ⟨d, x, hread, -, hexpand, hdefinition⟩ := compile_eq_ok hok
  have hwritable := Document.writable_of_ofJson hread
  have hknown : Machine.knownMembers ⊆ Document.knownMembers := by
    simp [Machine.knownMembers, Document.knownMembers]
  rw [hdefinition]
  refine Definition.roundTrip (writable_assemble hwritable hexpand) fun key hkey hmember => ?_
  exact hwritable.others key hkey (hknown hmember)

/-- A playbook that can be read although it is not one by its shape: a `null` stands for absent
members, members of other names stand in states, machines and the document, and the start is no
state. -/
def looseNotes : Json := .obj
  [("Owner", .null), ("Playbook", .str "Notes"), ("Comment", .str ""), ("StartAt", .str "Nowhere"),
    ("States", .obj
      [("Keep", .obj [("Result", .null), ("Colour", .str "red"), ("Type", .str "Pass")]),
        ("Loop", .obj
          [("Type", .str "Map"), ("MaxConcurrency", .ofWord 2), ("Next", .null),
            ("Iterator", .obj
              [("Owner", .arr []), ("Comment", .null), ("StartAt", .str "Pick"),
                ("States", .obj
                  [("Pick", .obj
                    [("Type", .str "Choice"),
                      ("Choices", .arr [.obj [("Next", .str "Keep"), ("Any", .null)]])])])])])]),
    ("Decorators", .obj [("DisableDefaultRetry", .obj [("tasks", .arr [.str "Keep"])])])]

theorem read_and_compiled_roundTrip_looseNotes :
    shapeFindings .production looseNotes ≠ [] ∧
      (∃ d, Document.ofJson looseNotes = .ok d ∧ Document.ofJson d.toJson = .ok d) ∧
        ∃ c, compile .production {} (handledFan "Split" "Left") = .ok c ∧
          Definition.ofJson c.definition.toJson = .ok c.definition := by
  obtain ⟨d, hd⟩ := exists_of_isOk (x := Document.ofJson looseNotes) (by decide +kernel)
  obtain ⟨c, hc⟩ := exists_of_isOk (x := compile .production {} (handledFan "Split" "Left"))
    (by decide +kernel)
  refine ⟨by decide +kernel, ⟨d, hd, ?_⟩, c, hc, ?_⟩
  · exact (read_and_compiled_roundTrip .production {} looseNotes).1 d hd
  · exact (read_and_compiled_roundTrip .production {} (handledFan "Split" "Left")).2 c hc

end StateFlow
