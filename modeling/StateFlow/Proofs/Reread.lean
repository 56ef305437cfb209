import StateFlow.Playbook.Reader
import StateFlow.Playbook.Writer
import StateFlow.Proofs.Records

/-!
# Playbooks that are read and written again

A playbook that has the right shape loses nothing when it is read: a state, a machine or a failure
handler is rewritten (`rereads`, `rewritten_handler`).  The closed shapes are needed for this,
because a state drops the members that its kind does not know.
-/

namespace StateFlow.Playbook

open StateFlow.Json StateFlow.Schema

variable {marker : String} {target : Schema} {slot : Slot} {members : Entries Json}

/-! ## Records without states -/

theorem accepts_inner {parts : List Schema} {v : Json} :
    (Shape.inner parts).Accepts target v ↔ ∀ part ∈ parts, Accepts target part v := by
  rw [Shape.inner, Inner.Accepts, Inner.resolve, accepts_all]

/-- The members of an accepted object are accepted. -/
theorem accepts_member {known : Entries Inner}
    (hclosed : Accepts target (.closed known) (.obj members)) {key : String} {v : Json}
    (hv : Entries.get? members key = some v) {inner : Inner}
    (hinner : Entries.get? known key = some inner) : inner.Accepts target v := by
  rw [accepts_closed] at hclosed
  obtain ⟨other, hother, haccepts⟩ := hclosed _ (Entries.mem_of_get? hv)
  rw [hinner] at hother
  cases hother
  exact haccepts

theorem rewritten_texts {v : Json} {xs : List String} (hread : readList readString v = .ok xs) :
    Rewritten slot v (texts xs) :=
  rewritten_list hread fun _ _ _ _ _ => rewritten_string

/-- Numbers of seconds are read as they are. -/
theorem exists_word_of_seconds {least : Nat} {n : Number}
    (haccepts : (Shape.seconds least).Accepts target (.num n)) :
    ∃ x, n.toWord? = some x ∧ n.value = x.toNat := by
  simp only [Shape.seconds, accepts_inner, List.forall_mem_cons, accepts_type, accepts_minimum,
    accepts_maximum] at haccepts
  obtain ⟨hwhole, hleast, hgreatest, -⟩ := haccepts
  have hnonneg : (0 : ℚ) ≤ least := Nat.cast_nonneg least
  refine Number.exists_word hwhole (hnonneg.trans (Number.le_value_of_ltNat hleast)) ?_
  exact lt_of_le_of_lt (Number.value_le_of_gtNat hgreatest) (by norm_num)

theorem rewritten_seconds {least : Nat} {v : Json} {x : UInt64} (hread : readWord v = .ok x)
    (haccepts : (Shape.seconds least).Accepts target v) : Rewritten .seconds v (.ofWord x) := by
  obtain ⟨n, rfl, hword⟩ := readWord_eq_ok hread
  obtain ⟨y, hy, hvalue⟩ := exists_word_of_seconds haccepts
  cases hword.symm.trans hy
  exact .seconds hword hvalue

theorem readRecord_eq_ok {α : Type} {name : String} {read : Entries Json → Reading α} {v : Json}
    {x : α} (hread : readRecord name read v = .ok x) : ∃ m, v = .obj m ∧ (read m).Gives x := by
  cases v with
  | obj m => exact ⟨m, rfl, Reading.toExcept_eq_ok.mp hread⟩
  | _ => cases hread

theorem rewritten_retrier {v : Json} {r : Retrier} (hread : Retrier.ofJson v = .ok r)
    (haccepts : Shape.retrier.Accepts target v) : Rewritten .retrier v r.toJson := by
  obtain ⟨m, rfl, hgives⟩ := readRecord_eq_ok hread
  simp only [Shape.retrier, accepts_inner, List.forall_mem_cons] at haccepts
  obtain ⟨-, -, hclosed, -⟩ := haccepts
  simp only [Reading.gives_seq, Reading.gives_map, Members.required_gives,
    Members.optional_gives] at hgives
  obtain ⟨_, _, ⟨_, _, ⟨_, _, ⟨_, herrors, rfl⟩, hinterval, rfl⟩, hattempts, rfl⟩, hrate,
    rfl⟩ := hgives
  have hwrites := (Writes.required herrors fun _ _ _ => rewritten_texts : Writes .retrier m _ _)
    |>.append (.optional hinterval fun _ _ hv hx =>
      rewritten_seconds hx (accepts_member hclosed hv rfl))
    |>.append (.optional hattempts fun _ _ hv hx =>
      rewritten_seconds hx (accepts_member hclosed hv rfl))
    |>.append (.optional hrate fun _ _ _ => rewritten_number)
  exact hwrites.rewritten_obj (by decide) rfl rfl hclosed

theorem rewritten_catcher {v : Json} {c : Catcher} (hread : Catcher.ofJson v = .ok c)
    (haccepts : Shape.catcher.Accepts target v) : Rewritten slot v c.toJson := by
  obtain ⟨m, rfl, hgives⟩ := readRecord_eq_ok hread
  simp only [Reading.gives_seq, Reading.gives_map, Members.required_gives,
    Members.optional_gives] at hgives
  obtain ⟨_, _, ⟨_, _, ⟨_, herrors, rfl⟩, hpath, rfl⟩, hnext, rfl⟩ := hgives
  have hwrites := (Writes.required herrors fun _ _ _ => rewritten_texts : Writes slot m _ _)
    |>.append (.optional hpath fun _ _ _ => rewritten_string)
    |>.append (.required hnext fun _ _ _ => rewritten_string)
  simp only [Shape.catcher, accepts_inner, List.forall_mem_cons] at haccepts
  exact hwrites.rewritten_obj (by decide) rfl rfl haccepts.2.2.1

/-! ## Members of other names -/

theorem mem_others {α : Type} {known : List String} {m : Entries α} {entry : String × α} :
    entry ∈ others known m ↔ entry ∈ m ∧ entry.1 ∉ known := by
  simp [others, Entries.filterKeys]

theorem keys_others {α : Type} (known : List String) (m : Entries α) :
    Entries.keys (others known m) = (Entries.keys m).filter fun key => !known.contains key := by
  simp [others, Entries.filterKeys, Entries.keys, List.filter_map, Function.comp_def]

/-- Entries for known names and all members of other names, in any order, make an object that is
rewritten. -/
theorem rewritten_with_others {names : List String} {entries ws : Entries Json}
    (hwrites : Writes slot members names entries) (hnodup : names.Nodup)
    (hnull : ∀ key ∈ names, ∀ v, Entries.get? members key = some v → v ≠ .null)
    (hperm : ws.Perm (entries ++ others names members)) :
    Rewritten slot (.obj members) (.obj ws) := by
  have hkeys : (Entries.keys ws).Perm
      (Entries.keys entries ++ Entries.keys (others names members)) :=
    Entries.keys_append entries _ ▸ hperm.map Prod.fst
  refine Rewritten.of_members (fun entry hentry => ?_) (fun key => ?_) fun hdistinct => ?_
  · rcases List.mem_append.mp (hperm.mem_iff.mp hentry) with hown | hother
    · exact hwrites.rewritten entry hown
    · exact ⟨entry.2, (mem_others.mp hother).1, .same _ _⟩
  · rw [hkeys.mem_iff, List.mem_append, keys_others, List.mem_filter]
    constructor
    · intro hkey
      obtain ⟨v, hv⟩ := Entries.mem_keys_iff_get?.mp hkey
      by_cases hknown : key ∈ names
      · exact Or.inl (hwrites.covers key hknown v hv (hnull key hknown v hv))
      · exact Or.inr ⟨hkey, by simpa using hknown⟩
    · rintro (hown | ⟨hkey, -⟩)
      · obtain ⟨w, hw⟩ := Entries.mem_keys_iff_get?.mp hown
        obtain ⟨v, hv, -⟩ := hwrites.rewritten _ (Entries.mem_of_get? hw)
        exact Entries.mem_keys_of_mem hv
      · exact hkey
  · rw [Entries.Distinct, hkeys.nodup_iff, List.nodup_append, keys_others]
    refine ⟨hwrites.keys.nodup hnodup, hdistinct.filter _, fun a ha b hb hab => ?_⟩
    have hknown := hwrites.keys.subset ha
    simp [← hab, hknown] at hb

theorem rewritten_rule {v : Json} {r : ChoiceRule} (hread : ChoiceRule.ofJson v = .ok r) :
    Rewritten slot v r.toJson := by
  obtain ⟨m, rfl, hgives⟩ := readRecord_eq_ok hread
  simp only [Reading.gives_seq, Reading.gives_map, Reading.gives_pure,
    Members.required_gives] at hgives
  obtain ⟨_, _, ⟨_, rfl, rfl⟩, ⟨v, hv, hnext⟩, rfl⟩ := hgives
  have hwrites : Writes slot m _ _ := .required ⟨v, hv, hnext⟩ fun _ _ _ => rewritten_string
  refine rewritten_with_others hwrites (by simp) (fun key hkey u hu => ?_) List.perm_append_comm
  rw [List.mem_singleton.mp hkey, hv] at hu
  cases hu
  rintro rfl
  cases hnext

/-! ## Parts of states -/

theorem value_ofJson (v : Json) : (Part.ofJson v).value = v := by
  cases v <;> rfl

theorem get?_ofMembers (m : Entries Json) (key : String) :
    Entries.get? (Part.ofMembers m) key = (Entries.get? m key).map Part.ofJson := by
  induction m with
  | nil => rfl
  | cons entry m ih =>
      rw [Part.ofMembers, Entries.get?, Entries.get?]
      split
      · rfl
      · exact ih

section Fields

variable {β : Type}

theorem member_gives {key : String} {read : Part → Except Mismatch β} {x : β} :
    (Members.required (Part.ofMembers members) key read).Gives x ↔
      MustRead members key (fun v => read (Part.ofJson v)) x := by
  simp [Members.required_gives, get?_ofMembers, MustRead]

theorem requiredPart_gives {key : String} {read : Json → Except Mismatch β} {x : β} :
    (requiredPart (Part.ofMembers members) key read).Gives x ↔ MustRead members key read x := by
  simp [requiredPart, member_gives, value_ofJson]

theorem optionalPart_gives {key : String} {read : Json → Except Mismatch β} {x : Option β} :
    (optionalPart (Part.ofMembers members) key read).Gives x ↔ MayRead members key read x := by
  simp [optionalPart, Members.optional_gives, get?_ofMembers, MayRead, value_ofJson]

theorem writes_header {h : Header} (hgives : (Fields.header (Part.ofMembers members)).Gives h) :
    Writes .state members ["Comment", "InputPath", "OutputPath"] h.entries := by
  simp only [Fields.header, Reading.gives_seq, Reading.gives_map, optionalPart_gives] at hgives
  obtain ⟨_, _, ⟨_, _, ⟨_, hcomment, rfl⟩, hinput, rfl⟩, houtput, rfl⟩ := hgives
  exact Writes.optional hcomment (fun _ _ _ => rewritten_string)
    |>.append (.optional hinput fun _ _ _ => rewritten_string)
    |>.append (.optional houtput fun _ _ _ => rewritten_string)

theorem writes_exit {e : Exit} (hgives : (Fields.exit (Part.ofMembers members)).Gives e) :
    Writes .state members ["Next", "End"] e.entries := by
  simp only [Fields.exit, Reading.gives_seq, Reading.gives_map, optionalPart_gives] at hgives
  obtain ⟨_, _, ⟨_, hnext, rfl⟩, hend, rfl⟩ := hgives
  exact Writes.optional hnext (fun _ _ _ => rewritten_string)
    |>.append (.optional hend fun _ _ _ => rewritten_bool)

theorem writes_effects {e : Effects} (hgives : (Fields.effects (Part.ofMembers members)).Gives e) :
    Writes .state members ["Parameters", "ResultSelector", "ResultPath"] e.entries := by
  simp only [Fields.effects, Reading.gives_seq, Reading.gives_map, optionalPart_gives] at hgives
  obtain ⟨_, _, ⟨_, _, ⟨_, hparameters, rfl⟩, hselector, rfl⟩, hpath, rfl⟩ := hgives
  exact Writes.optional hparameters (fun _ _ _ => rewritten_any)
    |>.append (.optional hselector fun _ _ _ => rewritten_any)
    |>.append (.optional hpath fun _ _ _ => rewritten_string)

theorem rewritten_accepted_list {read : Json → Except Mismatch β} {write : β → Json} {inner : Inner}
    (hrewritten : ∀ v x, read v = .ok x → inner.Accepts target v →
      Rewritten slot.item v (write x)) {v : Json}
    {xs : List β} (hread : readList read v = .ok xs)
    (haccepts : (Shape.inner [.type .array, .eachItem inner]).Accepts target v) :
    Rewritten slot v (Json.ofList write xs) := by
  have hitems := accepts_inner.mp haccepts (.eachItem inner) (by simp)
  refine rewritten_list hread fun items hv item hitem x hx => ?_
  rw [hv, accepts_eachItem] at hitems
  exact hrewritten item x hx (hitems item hitem)

theorem writes_recovery {known : Entries Inner} {r : Recovery}
    (hgives : (Fields.recovery (Part.ofMembers members)).Gives r)
    (hclosed : Accepts target (.closed known) (.obj members))
    (hretry : Entries.get? known "Retry" =
      some (Shape.inner [.type .array, .eachItem Shape.retrier]))
    (hcatch : Entries.get? known "Catch" =
      some (Shape.inner [.type .array, .eachItem Shape.catcher])) :
    Writes .state members ["Retry", "Catch"] r.entries := by
  simp only [Fields.recovery, Reading.gives_seq, Reading.gives_map, optionalPart_gives] at hgives
  obtain ⟨_, _, ⟨_, hretriers, rfl⟩, hcatchers, rfl⟩ := hgives
  exact Writes.optional hretriers (fun _ _ hv hx =>
      rewritten_accepted_list (fun _ _ => rewritten_retrier) hx (accepts_member hclosed hv hretry))
    |>.append (.optional hcatchers fun _ _ hv hx =>
      rewritten_accepted_list (fun _ _ => rewritten_catcher) hx (accepts_member hclosed hv hcatch))

end Fields

/-! ## States without machines -/

section Kinds

variable {kind : Kind} (hkind : Entries.get? members "Type" = some (.str kind.name))

theorem closed_of_accepts {named : Schema} {required : List String} {known : Entries Inner}
    {rules : List Schema}
    (haccepts : Accepts target (Shape.kindObject named required known rules) (.obj members)) :
    Accepts target (.closed (("Type", .schema named) :: ("Comment", Shape.text) :: known))
      (.obj members) :=
  accepts_closed.mpr (Shape.accepts_kindObject.mp haccepts).2.1

include hkind

theorem writes_kind : Writes .state members ["Type"] [("Type", .str kind.name)] :=
  .single hkind (.same _ _)

theorem rewritten_pass {s : Pass} (hgives : (Fields.pass (Part.ofMembers members)).Gives s)
    (haccepts : Accepts target Shape.pass (.obj members)) :
    Rewritten .state (.obj members) (.obj (("Type", .str kind.name) :: s.entries)) := by
  simp only [Fields.pass, Reading.gives_seq, Reading.gives_map, optionalPart_gives] at hgives
  obtain ⟨_, _, ⟨_, _, ⟨_, _, ⟨_, _, ⟨_, hheader, rfl⟩, hparameters, rfl⟩, hresult, rfl⟩, hpath,
    rfl⟩, hexit, rfl⟩ := hgives
  have hwrites := (writes_kind hkind).append <| (writes_header hheader)
    |>.append (.optional hparameters fun _ _ _ => rewritten_any)
    |>.append (.optional hresult fun _ _ _ => rewritten_any)
    |>.append (.optional hpath fun _ _ _ => rewritten_string)
    |>.append (writes_exit hexit)
  exact hwrites.rewritten_obj (by decide) rfl rfl (closed_of_accepts haccepts)

theorem rewritten_succeed {h : Header} (hgives : (Fields.header (Part.ofMembers members)).Gives h)
    (haccepts : Accepts target Shape.succeed (.obj members)) :
    Rewritten .state (.obj members) (.obj (("Type", .str kind.name) :: h.entries)) :=
  (writes_kind hkind).append (writes_header hgives)
    |>.rewritten_obj (by decide) rfl rfl (closed_of_accepts haccepts)

theorem rewritten_fail {s : Fail} (hgives : (Fields.fail (Part.ofMembers members)).Gives s)
    (haccepts : Accepts target Shape.fail (.obj members)) :
    Rewritten .state (.obj members) (.obj (("Type", .str kind.name) :: s.entries)) := by
  simp only [Fields.fail, Reading.gives_seq, Reading.gives_map, optionalPart_gives] at hgives
  obtain ⟨_, _, ⟨_, _, ⟨_, hcomment, rfl⟩, hcause, rfl⟩, herror, rfl⟩ := hgives
  have hwrites := (writes_kind hkind).append <|
    (Writes.optional hcomment fun _ _ _ => rewritten_string)
    |>.append (.optional hcause fun _ _ _ => rewritten_string)
    |>.append (.optional herror fun _ _ _ => rewritten_string)
  exact hwrites.rewritten_obj (by decide) rfl rfl (closed_of_accepts haccepts)

theorem rewritten_wait {s : Wait} (hgives : (Fields.wait (Part.ofMembers members)).Gives s)
    (haccepts : Accepts target (Shape.wait marker) (.obj members)) :
    Rewritten .state (.obj members) (.obj (("Type", .str kind.name) :: s.entries)) := by
  simp only [Fields.wait, Reading.gives_seq, Reading.gives_map, optionalPart_gives] at hgives
  obtain ⟨_, _, ⟨_, _, ⟨_, _, ⟨_, _, ⟨_, _, ⟨_, hheader, rfl⟩, hseconds, rfl⟩, htimestamp, rfl⟩,
    hsecondsPath, rfl⟩, htimestampPath, rfl⟩, hexit, rfl⟩ := hgives
  have hwrites := (writes_kind hkind).append <| (writes_header hheader)
    |>.append (.optional hseconds fun _ _ _ => rewritten_any)
    |>.append (.optional htimestamp fun _ _ _ => rewritten_string)
    |>.append (.optional hsecondsPath fun _ _ _ => rewritten_string)
    |>.append (.optional htimestampPath fun _ _ _ => rewritten_string)
    |>.append (writes_exit hexit)
  exact hwrites.rewritten_obj (by decide) rfl rfl (closed_of_accepts haccepts)

theorem rewritten_task {terminal : Shape.Terminal} {s : Task}
    (hgives : (Fields.task (Part.ofMembers members)).Gives s)
    (haccepts : Accepts target (Shape.task terminal) (.obj members)) :
    Rewritten .state (.obj members) (.obj (("Type", .str kind.name) :: s.entries)) := by
  have hclosed := closed_of_accepts haccepts
  simp only [Fields.task, Reading.gives_seq, Reading.gives_map, optionalPart_gives,
    requiredPart_gives] at hgives
  obtain ⟨_, _, ⟨_, _, ⟨_, _, ⟨_, _, ⟨_, _, ⟨_, _, ⟨_, _, ⟨_, _, ⟨_, hheader, rfl⟩, hresource, rfl⟩,
    heffects, rfl⟩, htimeout, rfl⟩, htimeoutPath, rfl⟩, hheartbeat, rfl⟩, hheartbeatPath, rfl⟩,
    hrecovery, rfl⟩, hexit, rfl⟩ := hgives
  have hwrites := (writes_kind hkind).append <| (writes_header hheader)
    |>.append (.required hresource fun _ _ _ => rewritten_string)
    |>.append (writes_effects heffects)
    |>.append (.optional htimeout fun _ _ hv hx =>
      rewritten_seconds hx (accepts_member hclosed hv rfl))
    |>.append (.optional htimeoutPath fun _ _ _ => rewritten_string)
    |>.append (.optional hheartbeat fun _ _ hv hx =>
      rewritten_seconds hx (accepts_member hclosed hv rfl))
    |>.append (.optional hheartbeatPath fun _ _ _ => rewritten_string)
    |>.append (writes_recovery hrecovery hclosed rfl rfl)
    |>.append (writes_exit hexit)
  exact hwrites.rewritten_obj (by decide) rfl rfl hclosed

theorem rewritten_choice {s : Choice} (hgives : (Fields.choice (Part.ofMembers members)).Gives s)
    (haccepts : Accepts target Shape.choice (.obj members)) :
    Rewritten .state (.obj members) (.obj (("Type", .str kind.name) :: s.entries)) := by
  simp only [Fields.choice, Reading.gives_seq, Reading.gives_map, optionalPart_gives,
    requiredPart_gives] at hgives
  obtain ⟨_, _, ⟨_, _, ⟨_, hheader, rfl⟩, hrules, rfl⟩, hfallback, rfl⟩ := hgives
  have hwrites := (writes_kind hkind).append <| (writes_header hheader)
    |>.append (.required hrules fun _ _ _ hx => rewritten_list hx fun _ _ _ _ _ => rewritten_rule)
    |>.append (.optional hfallback fun _ _ _ => rewritten_string)
  exact hwrites.rewritten_obj (by decide) rfl rfl (closed_of_accepts haccepts)

end Kinds

/-! ## States with machines -/

/-- A value is rewritten by what it reads as, where states or machines are asked for. -/
structure Rereads (marker : String) (v : Json) : Prop where
  state : ∀ s, (Part.ofJson v).state.get = .ok s →
    Accepts (Shape.state marker) (Shape.state marker) v → Rewritten .state v s.toJson
  states : ∀ own, (Part.ofJson v).states.get = .ok own →
    Shape.states.Accepts (Shape.state marker) v → Rewritten .states v (statesToJson own)
  machine : ∀ m, (Part.ofJson v).machine.get = .ok m →
    Shape.machine.Accepts (Shape.state marker) v → Rewritten .machine v m.toJson
  machines : ∀ ms, (Part.ofJson v).machines.get = .ok ms →
    Accepts (Shape.state marker) (.eachItem Shape.machine) v →
      Rewritten .machines v (.arr (Machine.listToJson ms))

theorem rewritten_parallel {terminal : Shape.Terminal} {s : State}
    (hkind : Entries.get? members "Type" = some (.str Kind.parallel.name))
    (hgives : (Fields.state (Part.ofMembers members) .parallel).Gives s)
    (haccepts : Accepts (Shape.state marker) (Shape.parallel terminal) (.obj members))
    (ih : ∀ entry ∈ members, Rereads marker entry.2) :
    Rewritten .state (.obj members) s.toJson := by
  have hclosed := closed_of_accepts haccepts
  simp only [Fields.state, Fields.parallel, Reading.gives_seq, Reading.gives_map,
    member_gives] at hgives
  obtain ⟨_, branches, ⟨_, ⟨_, _, ⟨_, _, ⟨_, _, ⟨_, hheader, rfl⟩, heffects, rfl⟩, hrecovery, rfl⟩,
    hexit, rfl⟩, rfl⟩, ⟨v, hv, hmachines⟩, rfl⟩ := hgives
  have hitems := accepts_inner.mp (accepts_member hclosed hv rfl) (.eachItem Shape.machine)
    (by simp)
  have hbranches := (ih _ (Entries.mem_of_get? hv)).machines branches hmachines hitems
  have hwrites := (writes_kind hkind).append <| (writes_header hheader)
    |>.append (writes_effects heffects)
    |>.append (writes_recovery hrecovery hclosed rfl rfl)
    |>.append (.single hv hbranches)
    |>.append (writes_exit hexit)
  exact hwrites.rewritten_obj (by decide) rfl rfl hclosed

theorem rewritten_map {s : State}
    (hkind : Entries.get? members "Type" = some (.str Kind.map.name))
    (hgives : (Fields.state (Part.ofMembers members) .map).Gives s)
    (haccepts : Accepts (Shape.state marker) Shape.map (.obj members))
    (ih : ∀ entry ∈ members, Rereads marker entry.2) :
    Rewritten .state (.obj members) s.toJson := by
  have hclosed := closed_of_accepts haccepts
  simp only [Fields.state, Fields.mapOver, Reading.gives_seq, Reading.gives_map, member_gives,
    optionalPart_gives] at hgives
  obtain ⟨_, iterator, ⟨_, ⟨_, _, ⟨_, _, ⟨_, _, ⟨_, _, ⟨_, _, ⟨_, hheader, rfl⟩, hitems, rfl⟩,
    hconcurrency, rfl⟩, heffects, rfl⟩, hrecovery, rfl⟩, hexit, rfl⟩, rfl⟩, ⟨v, hv, hmachine⟩,
    rfl⟩ := hgives
  have hiterator := (ih _ (Entries.mem_of_get? hv)).machine iterator hmachine
    (accepts_member hclosed hv rfl)
  have hwrites := (writes_kind hkind).append <| (writes_header hheader)
    |>.append (.optional hitems fun _ _ _ => rewritten_string)
    |>.append (.optional hconcurrency fun _ _ _ => rewritten_concurrency)
    |>.append (.single hv hiterator)
    |>.append (writes_effects heffects)
    |>.append (writes_recovery hrecovery hclosed rfl rfl)
    |>.append (writes_exit hexit)
  exact hwrites.rewritten_obj (by decide) rfl rfl hclosed

@[simp] theorem namedToJson_eq (own : Entries State) :
    State.namedToJson own = Entries.mapValues State.toJson own := by
  induction own with
  | nil => rfl
  | cons entry own ih => rw [State.namedToJson, ih]; rfl

@[simp] theorem listToJson_eq (machines : List Machine) :
    Machine.listToJson machines = machines.map Machine.toJson := by
  induction machines with
  | nil => rfl
  | cons m machines ih => rw [Machine.listToJson, ih]; rfl

theorem ofItems_eq (items : List Json) : Part.ofItems items = items.map Part.ofJson := by
  induction items with
  | nil => rfl
  | cons item items ih => rw [Part.ofItems, ih]; rfl

theorem ofMembers_eq (m : Entries Json) : Part.ofMembers m = Entries.mapValues Part.ofJson m := by
  induction m with
  | nil => rfl
  | cons entry m ih => rw [Part.ofMembers, ih]; rfl

theorem values_others (known : List String) (m : Entries Json) :
    Entries.mapValues Part.value (others known (Part.ofMembers m)) = others known m := by
  simp [ofMembers_eq, others, Entries.filterKeys, Entries.mapValues, List.filter_map,
    Function.comp_def, value_ofJson]

/-- A list reads as machines item by item. -/
theorem machines_arr_eq_ok {items : List Json} {ms : List Machine} :
    (Part.ofJson (.arr items)).machines.get = .ok ms ↔
      List.Forall₂ (fun item m => (Part.ofJson item).machine.get = .ok m) items ms := by
  change ((Part.ofItems items).mapM fun part => part.machine.get) = .ok ms ↔ _
  rw [ofItems_eq, mapM_eq_ok, List.forall₂_map_left_iff]

/-- An object reads as states member by member. -/
theorem states_obj_eq_ok {own : Entries State} :
    (Part.ofJson (.obj members)).states.get = .ok own ↔
      List.Forall₂ (fun entry result => entry.1 = result.1 ∧
        (Part.ofJson entry.2).state.get = .ok result.2) members own := by
  have hentry : ∀ (name : String) (part : Part) (result : String × State),
      (do return (name, ← part.state.get) : Except Mismatch _) = .ok result ↔
        name = result.1 ∧ part.state.get = .ok result.2 := by
    intro name part result
    cases hs : part.state.get with
    | error e => simp [bind, Except.bind]
    | ok s => simp [bind, Except.bind, pure, Except.pure, Prod.ext_iff]
  change ((Part.ofMembers members).mapM fun entry => return (entry.1, ← entry.2.state.get)) =
    .ok own ↔ _
  rw [ofMembers_eq, mapM_eq_ok, Entries.mapValues, List.forall₂_map_left_iff]
  simp only [hentry]

theorem rewritten_machine {m : Machine} (hread : (Fields.machine (Part.ofMembers members)).Gives m)
    (hrewritten : ∀ v, ("States", v) ∈ members → Shape.states.Accepts target v →
      ∀ own, (Part.ofJson v).states.get = .ok own → Rewritten .states v (statesToJson own))
    (haccepts : Shape.machine.Accepts target (.obj members)) :
    Rewritten .machine (.obj members) m.toJson := by
  simp only [Shape.machine, accepts_inner, List.forall_mem_cons] at haccepts
  obtain ⟨-, -, hclosed, -⟩ := haccepts
  simp only [Fields.machine, Reading.gives_seq, Reading.gives_map, Reading.gives_pure,
    optionalPart_gives, requiredPart_gives, member_gives, values_others] at hread
  obtain ⟨_, _, ⟨_, _, ⟨_, _, ⟨_, hcomment, rfl⟩, hstart, rfl⟩, ⟨v, hv, hstates⟩, rfl⟩, rfl,
    rfl⟩ := hread
  have hstates := hrewritten v (Entries.mem_of_get? hv) (accepts_member hclosed hv rfl) _ hstates
  have hwrites := (Writes.optional hcomment fun _ _ _ => rewritten_string :
      Writes .machine members _ _)
    |>.append (.required hstart fun _ _ _ => rewritten_string)
    |>.append (.single hv hstates)
  refine rewritten_with_others hwrites (by decide) (fun key hkey u hu => ?_) ?_
  · have hknown := accepts_closed.mp hclosed _ (Entries.mem_of_get? hu)
    obtain ⟨inner, hinner, haccepts⟩ := hknown
    exact ne_null_of_accepts rfl hinner haccepts
  · simp [statesToJson]

theorem rereads_scalar {v : Json} (hv : Part.ofJson v = Part.scalar v) : Rereads marker v := by
  constructor <;> rw [hv] <;> intro _ hread <;> cases hread

theorem rereads_arr {items : List Json} (ih : ∀ item ∈ items, Rereads marker item) :
    Rereads marker (.arr items) := by
  refine ⟨fun _ hread => ?_, fun _ hread => ?_, fun _ hread => ?_, fun ms hread haccepts => ?_⟩
  · cases hread
  · cases hread
  · cases hread
  · rw [machines_arr_eq_ok] at hread
    rw [accepts_eachItem] at haccepts
    refine Rewritten.of_forall₂ ?_
    rw [listToJson_eq, List.forall₂_map_right_iff]
    have hitems : ∀ item ∈ items, ∀ m, (Part.ofJson item).machine.get = .ok m →
        Rewritten .machine item m.toJson :=
      fun item hitem m hm => (ih item hitem).machine m hm (haccepts item hitem)
    exact (List.forall₂_and_left _ _).mpr ⟨hitems, hread⟩ |>.imp fun item m h => h.1 m h.2

theorem rewritten_states {own : Entries State}
    (hread : (Part.ofJson (.obj members)).states.get = .ok own)
    (hrewritten : ∀ entry ∈ members, ∀ s, (Part.ofJson entry.2).state.get = .ok s →
      Rewritten .state entry.2 s.toJson) : Rewritten .states (.obj members) (statesToJson own) := by
  rw [states_obj_eq_ok] at hread
  rw [statesToJson, namedToJson_eq]
  refine Rewritten.of_pairs (List.forall₂_map_right_iff.mpr ?_)
  exact (List.forall₂_and_left _ _).mpr ⟨hrewritten, hread⟩ |>.imp fun entry result h =>
    ⟨h.2.1, h.1 result.2 h.2.2⟩

theorem ofMember_eq_ok {v : Option Json} {kind : Kind} (hread : Kind.ofMember v = .ok kind) :
    v = some (.str kind.name) := by
  unfold Kind.ofMember at hread
  split at hread
  · cases hread
  · next text =>
      split at hread
      · next found hfound =>
          cases hread
          rw [Shape.name_of_ofName? hfound]
      · cases hread
  · cases hread

theorem ofMembers_eq_ok {s : State} (hread : State.ofMembers (Part.ofMembers members) = .ok s) :
    ∃ kind : Kind, Entries.get? members "Type" = some (.str kind.name) ∧
      (Fields.state (Part.ofMembers members) kind).Gives s := by
  rw [State.ofMembers, get?_ofMembers, Option.map_map] at hread
  cases hkind : Kind.ofMember ((Entries.get? members "Type").map (Part.value ∘ Part.ofJson)) with
  | error e => simp [hkind, bind, Except.bind] at hread
  | ok kind =>
      rw [hkind] at hread
      refine ⟨kind, ?_, Reading.toExcept_eq_ok.mp hread⟩
      simpa [Function.comp_def, value_ofJson] using ofMember_eq_ok hkind

theorem rewritten_state_obj {kind : Kind} {s : State}
    (hkind : Entries.get? members "Type" = some (.str kind.name))
    (hgives : (Fields.state (Part.ofMembers members) kind).Gives s)
    (hshape : Accepts (Shape.state marker) (Shape.ofKind marker kind) (.obj members))
    (ih : ∀ entry ∈ members, Rereads marker entry.2) :
    Rewritten .state (.obj members) s.toJson := by
  cases kind with
  | pass =>
      obtain ⟨_, hfields, rfl⟩ := Reading.gives_map.mp hgives
      exact rewritten_pass hkind hfields hshape
  | succeed =>
      obtain ⟨_, hfields, rfl⟩ := Reading.gives_map.mp hgives
      exact rewritten_succeed hkind hfields hshape
  | fail =>
      obtain ⟨_, hfields, rfl⟩ := Reading.gives_map.mp hgives
      exact rewritten_fail hkind hfields hshape
  | wait =>
      obtain ⟨_, hfields, rfl⟩ := Reading.gives_map.mp hgives
      exact rewritten_wait hkind hfields hshape
  | task =>
      obtain ⟨_, hfields, rfl⟩ := Reading.gives_map.mp hgives
      exact rewritten_task hkind hfields hshape
  | interaction =>
      obtain ⟨_, hfields, rfl⟩ := Reading.gives_map.mp hgives
      exact rewritten_task hkind hfields hshape
  | choice =>
      obtain ⟨_, hfields, rfl⟩ := Reading.gives_map.mp hgives
      exact rewritten_choice hkind hfields hshape
  | parallel => exact rewritten_parallel hkind hgives hshape ih
  | map => exact rewritten_map hkind hgives hshape ih

theorem rereads_obj (ih : ∀ entry ∈ members, Rereads marker entry.2) :
    Rereads marker (.obj members) := by
  refine ⟨fun s hread haccepts => ?_, fun own hread haccepts => ?_, fun m hread haccepts => ?_,
    fun _ hread => ?_⟩
  · obtain ⟨kind, hkind, hgives⟩ := ofMembers_eq_ok hread
    obtain ⟨other, hother, hshape⟩ := Shape.accepts_state_iff.mp haccepts
    cases Shape.kind_unique hkind hother
    exact rewritten_state_obj hkind hgives hshape ih
  · rw [Shape.states, accepts_inner] at haccepts
    have hmembers := haccepts (.eachMember .recur) (by simp)
    rw [accepts_eachMember] at hmembers
    exact rewritten_states hread fun entry hentry s hs =>
      (ih entry hentry).state s hs (hmembers entry hentry)
  · exact rewritten_machine (Reading.toExcept_eq_ok.mp hread)
      (fun v hv haccepts own hown => (ih _ hv).states own hown haccepts) haccepts
  · cases hread

theorem rereads (marker : String) (v : Json) : Rereads marker v := by
  induction v using Json.inductionOn with
  | null | bool _ | num _ | str _ => exact rereads_scalar rfl
  | arr items ih => exact rereads_arr ih
  | obj members ih => exact rereads_obj ih

/-! ## Documents -/

theorem kind_of_gives {kind : Kind} {s : State}
    (hgives : (Fields.state (Part.ofMembers members) kind).Gives s) : s.kind = kind := by
  cases kind with
  | parallel | map =>
      simp only [Fields.state, Reading.gives_seq, Reading.gives_map] at hgives
      obtain ⟨_, _, ⟨_, -, rfl⟩, -, rfl⟩ := hgives
      rfl
  | _ =>
      obtain ⟨_, -, rfl⟩ := Reading.gives_map.mp hgives
      rfl

/-- What a state does about errors is read from its own members. -/
theorem recovery_of_gives {kind : Kind} {s : State}
    (hgives : (Fields.state (Part.ofMembers members) kind).Gives s) {own : Recovery}
    (hown : s.recovery? = some own) : (Fields.recovery (Part.ofMembers members)).Gives own := by
  cases kind with
  | task | interaction =>
      simp only [Fields.state, Fields.task, Reading.gives_seq, Reading.gives_map] at hgives
      obtain ⟨_, ⟨_, _, ⟨_, _, ⟨_, _, ⟨_, _, ⟨_, _, ⟨_, _, ⟨_, _, ⟨_, _, ⟨_, -, rfl⟩, -, rfl⟩,
        -, rfl⟩, -, rfl⟩, -, rfl⟩, -, rfl⟩, -, rfl⟩, hrecovery, rfl⟩, -, rfl⟩, rfl⟩ := hgives
      cases hown
      exact hrecovery
  | parallel =>
      simp only [Fields.state, Fields.parallel, Reading.gives_seq, Reading.gives_map] at hgives
      obtain ⟨_, _, ⟨_, ⟨_, _, ⟨_, _, ⟨_, _, ⟨_, -, rfl⟩, -, rfl⟩, hrecovery, rfl⟩, -, rfl⟩,
        rfl⟩, -, rfl⟩ := hgives
      cases hown
      exact hrecovery
  | map =>
      simp only [Fields.state, Fields.mapOver, Reading.gives_seq, Reading.gives_map] at hgives
      obtain ⟨_, _, ⟨_, ⟨_, _, ⟨_, _, ⟨_, _, ⟨_, _, ⟨_, _, ⟨_, -, rfl⟩, -, rfl⟩, -, rfl⟩,
        -, rfl⟩, hrecovery, rfl⟩, -, rfl⟩, rfl⟩, -, rfl⟩ := hgives
      cases hown
      exact hrecovery
  | _ =>
      obtain ⟨_, -, rfl⟩ := Reading.gives_map.mp hgives
      cases hown

/-- Failure handlers are rewritten as well, although they may leave open how they are left. -/
theorem rewritten_handler {v : Json} {handler : State} (hread : State.ofJson v = .ok handler)
    (hkind : handler.kind = .task ∨ handler.kind = .interaction ∨ handler.kind = .parallel)
    (haccepts : Accepts (Shape.state marker) Shape.handler v) :
    Rewritten .state v handler.toJson := by
  cases v with
  | obj members =>
      obtain ⟨kind, hname, hgives⟩ := ofMembers_eq_ok hread
      obtain ⟨other, hother, hshapes⟩ := Shape.accepts_byKind_iff.mp haccepts
      cases Shape.kind_unique hname hother
      rw [kind_of_gives hgives] at hkind
      rcases hkind with rfl | rfl | rfl
      · obtain ⟨_, hfields, rfl⟩ := Reading.gives_map.mp hgives
        exact rewritten_task hname hfields (hshapes (Shape.task .optional) (by simp))
      · obtain ⟨_, hfields, rfl⟩ := Reading.gives_map.mp hgives
        exact rewritten_task hname hfields (hshapes (Shape.task .optional) (by simp))
      · exact rewritten_parallel hname hgives (hshapes (Shape.parallel .optional) (by simp))
          fun entry _ => rereads marker entry.2
  | _ => cases hread

structure Document.ReadFrom (d : Document) (members : Entries Json) : Prop where
  name : MustRead members "Playbook" readString d.name
  comment : MustRead members "Comment" readString d.comment
  startAt : MustRead members "StartAt" readString d.startAt
  states : MustRead members "States" statesOfJson d.states
  decorators : MayRead members "Decorators" Decorators.ofJson d.decorators
  extra : d.extra = others Document.knownMembers members

theorem Document.ofJson_obj_eq_ok {d : Document} :
    Document.ofJson (.obj members) = .ok d ↔ d.ReadFrom members := by
  rw [Document.ofJson, readRecord, Reading.toExcept_eq_ok]
  simp only [Reading.gives_seq, Reading.gives_map, Reading.gives_pure, Members.required_gives,
    Members.optional_gives]
  constructor
  · rintro ⟨_, _, ⟨_, _, ⟨_, _, ⟨_, _, ⟨_, _, ⟨_, hname, rfl⟩, hcomment, rfl⟩, hstart, rfl⟩,
      hstates, rfl⟩, hdecorators, rfl⟩, rfl, rfl⟩
    exact ⟨hname, hcomment, hstart, hstates, hdecorators, rfl⟩
  · rintro ⟨hname, hcomment, hstart, hstates, hdecorators, hextra⟩
    exact ⟨_, _, ⟨_, _, ⟨_, _, ⟨_, _, ⟨_, _, ⟨_, hname, rfl⟩, hcomment, rfl⟩, hstart, rfl⟩, hstates,
      rfl⟩, hdecorators, rfl⟩, rfl, by rw [← hextra]⟩

theorem Document.ofJson_eq_ok {v : Json} {d : Document} (hread : Document.ofJson v = .ok d) :
    ∃ members, v = .obj members ∧ d.ReadFrom members := by
  obtain ⟨members, rfl, -⟩ := readRecord_eq_ok hread
  exact ⟨members, rfl, Document.ofJson_obj_eq_ok.mp hread⟩

def failureHandlerMember? (v : Json) : Option Json :=
  (v.get? "Decorators").bind fun decorators => decorators.get? "TaskFailureHandler"

/-- A failure handler is read from its member. -/
theorem Document.ReadFrom.handler {d : Document} (hfrom : d.ReadFrom members) {handler : State}
    (hsome : d.failureHandler? = some handler) :
    ∃ decorators value, Entries.get? members "Decorators" = some (.obj decorators) ∧
      Entries.get? decorators "TaskFailureHandler" = some value ∧
        State.ofJson value = .ok handler := by
  obtain ⟨found, hfound, hhandler⟩ := Option.bind_eq_some_iff.mp hsome
  rcases hfrom.decorators with ⟨-, hnone⟩ | ⟨v, hv, hread⟩
  · rw [hnone] at hfound
    cases hfound
  · rw [hfound] at hread
    obtain ⟨decorators, rfl, hgives⟩ := readRecord_eq_ok (readOptional_eq_some hread)
    simp only [Reading.gives_seq, Reading.gives_map, Members.optional_gives] at hgives
    obtain ⟨_, _, ⟨_, hmember, rfl⟩, -, rfl⟩ := hgives
    rcases hmember with ⟨-, hnone⟩ | ⟨value, hvalue, hstate⟩
    · rw [hnone] at hhandler
      cases hhandler
    · have hstate' : readOptional State.ofJson value = .ok (some handler) := by
        rw [hstate]
        exact congrArg Except.ok hhandler
      exact ⟨decorators, value, hv, hvalue, readOptional_eq_some hstate'⟩

theorem Document.ReadFrom.failureHandler?_eq_none {d : Document} (hfrom : d.ReadFrom members)
    (hnone : failureHandlerMember? (.obj members) = none) : d.failureHandler? = none := by
  rw [Option.eq_none_iff_forall_ne_some]
  intro handler hsome
  obtain ⟨decorators, value, hdecorators, hvalue, -⟩ := hfrom.handler hsome
  simp [failureHandlerMember?, Json.get?, hdecorators, hvalue] at hnone

end StateFlow.Playbook
