import StateFlow.Proofs.ClosedReferences
import StateFlow.Proofs.PointerValue
import StateFlow.Proofs.Reread

/-!
# Where findings about rules point

The path of a finding about a rule is put together from the names of the states on the way, as they
are.  Each leads to a place of the value that the document was read from: `ruleFindings_located`
says so, that a finding about a reference leads to the state that makes it, and that the path is the
pointer of that place exactly if no name on the way has a slash or a tilde.
-/

namespace StateFlow.Playbook

open StateFlow.Json

/-! ## Where parts are read from -/

theorem exists_of_forall₂ {α β : Type} {R : α → β → Prop} {xs : List α} {ys : List β}
    (hpairs : List.Forall₂ R xs ys) {n : Nat} {y : β} (hy : ys[n]? = some y) :
    ∃ x, xs[n]? = some x ∧ R x y := by
  induction hpairs generalizing n with
  | nil => simp at hy
  | cons hfirst hrest ih =>
      cases n with
      | zero =>
          rw [List.getElem?_cons_zero, Option.some.injEq] at hy
          exact ⟨_, rfl, hy ▸ hfirst⟩
      | succ n =>
          rw [List.getElem?_cons_succ] at hy ⊢
          exact ih hy

theorem branches_read {w : Json} {p : Parallel} {branches : List Machine}
    (hread : State.ofJson w = .ok (.parallel p branches)) :
    ∃ items, step? w (.key "Branches") = some (.arr items) ∧
      List.Forall₂ (fun item m => Machine.ofJson item = .ok m) items branches := by
  cases w with
  | obj members =>
      obtain ⟨kind, -, hgives⟩ := ofMembers_eq_ok hread
      obtain rfl : Kind.parallel = kind := kind_of_gives hgives
      simp only [Fields.state, Reading.gives_seq, Reading.gives_map, member_gives] at hgives
      obtain ⟨_, _, ⟨_, -, rfl⟩, ⟨v, hv, hmachines⟩, heq⟩ := hgives
      cases heq
      cases v with
      | arr items => exact ⟨items, hv, machines_arr_eq_ok.mp hmachines⟩
      | _ => cases hmachines
  | _ => cases hread

theorem iterator_read {w : Json} {m : MapOver} {iterator : Machine}
    (hread : State.ofJson w = .ok (.map m iterator)) :
    ∃ u, step? w (.key "Iterator") = some u ∧ Machine.ofJson u = .ok iterator := by
  cases w with
  | obj members =>
      obtain ⟨kind, -, hgives⟩ := ofMembers_eq_ok hread
      obtain rfl : Kind.map = kind := kind_of_gives hgives
      simp only [Fields.state, Reading.gives_seq, Reading.gives_map, member_gives] at hgives
      obtain ⟨_, _, ⟨_, -, rfl⟩, ⟨v, hv, hmachine⟩, heq⟩ := hgives
      cases heq
      exact ⟨v, hv, hmachine⟩
  | _ => cases hread

/-- The states of an object with distinct names are read from the members of their names. -/
theorem states_read {w : Json} {own : Entries State} (hwell : w.WellFormed)
    (hread : statesOfJson w = .ok own) :
    ∀ name s, (name, s) ∈ own → ∃ u, step? w (.key name) = some u ∧ State.ofJson u = .ok s := by
  cases w with
  | obj members =>
      have hown : ∀ result ∈ own, ∃ u, Entries.get? members result.1 = some u ∧
          State.ofJson u = .ok result.2 := by
        refine forall_mem_of_forall₂ (states_obj_eq_ok.mp hread) ?_
        rintro ⟨name, u⟩ hmember result ⟨rfl, hstate⟩
        exact ⟨u, Entries.get?_of_mem hwell.1 hmember, hstate⟩
      exact fun name s hmem => hown (name, s) hmem
  | _ => cases hread

theorem machine_read {w : Json} {m : Machine} (hread : Machine.ofJson w = .ok m) :
    ∃ u, step? w (.key "States") = some u ∧ statesOfJson u = .ok m.states := by
  cases w with
  | obj members =>
      have hgives := Reading.toExcept_eq_ok.mp hread
      simp only [Fields.machine, Reading.gives_seq, Reading.gives_map, Reading.gives_pure,
        member_gives] at hgives
      obtain ⟨_, _, ⟨_, _, ⟨_, _, ⟨_, -, rfl⟩, -, rfl⟩, ⟨u, hu, hstates⟩, rfl⟩, -, rfl⟩ := hgives
      exact ⟨u, hu, hstates⟩
  | _ => cases hread

theorem recovery_read {members : Entries Json} {own : Recovery}
    (hgives : (Fields.recovery (Part.ofMembers members)).Gives own) {n : Nat} {c : Catcher}
    (hc : (own.catchers.getD [])[n]? = some c) :
    ∃ items u, Entries.get? members "Catch" = some (.arr items) ∧ items[n]? = some u ∧
      Catcher.ofJson u = .ok c := by
  simp only [Fields.recovery, Reading.gives_seq, Reading.gives_map, optionalPart_gives] at hgives
  obtain ⟨_, catchers, ⟨_, -, rfl⟩, hcatchers, rfl⟩ := hgives
  rcases hcatchers with ⟨-, rfl⟩ | ⟨v, hv, hread⟩
  · simp at hc
  · cases catchers with
    | none => simp at hc
    | some rules =>
        have hlist := readOptional_eq_some hread
        cases v with
        | arr items =>
            obtain ⟨u, hu, hcatcher⟩ := exists_of_forall₂ (mapM_eq_ok.mp hlist) hc
            exact ⟨items, u, hv, hu, hcatcher⟩
        | _ => cases hlist

/-- The catch rules of a state are read from the items of their list. -/
theorem catchers_read {w : Json} {s : State} (hread : State.ofJson w = .ok s) {n : Nat}
    {c : Catcher} (hc : s.catchers[n]? = some c) :
    ∃ items u, step? w (.key "Catch") = some (.arr items) ∧ items[n]? = some u ∧
      Catcher.ofJson u = .ok c := by
  cases w with
  | obj members =>
      obtain ⟨kind, -, hgives⟩ := ofMembers_eq_ok hread
      unfold State.catchers at hc
      cases hown : s.recovery? with
      | none => simp [hown] at hc
      | some own =>
          rw [hown, Option.bind_some] at hc
          exact recovery_read (recovery_of_gives hgives hown) hc
  | _ => cases hread

/-! ## Where scopes stand -/

def StepsNamed (names : List String) (place : List Segment) : Prop :=
  ∀ segment ∈ place, segment.Plain ∨ ∃ name ∈ names, segment = .key name

def NamesIn (names : List String) (scopes : List Scope) : Prop :=
  ∀ scope ∈ scopes, ∀ name ∈ Entries.keys scope.states, name ∈ names

structure Scope.StandsAt (v : Json) (names : List String) (scope : Scope) (place : List Segment) :
    Prop where
  path : scope.path = plainPointer (place ++ [.key "States"])
  machine : ∃ w, v.at? place = some w
  states : ∀ name s, (name, s) ∈ scope.states →
    ∃ u, v.at? (place ++ [.key "States", .key name]) = some u ∧ State.ofJson u = .ok s
  steps : StepsNamed names place

theorem StepsNamed.append {names : List String} {place rest : List Segment}
    (hplace : StepsNamed names place) (hrest : ∀ segment ∈ rest, segment.Plain) :
    StepsNamed names (place ++ rest) :=
  List.forall_mem_append.mpr ⟨hplace, fun segment hmem => Or.inl (hrest segment hmem)⟩

theorem StepsNamed.state {names : List String} {place : List Segment} {name : String}
    (hplace : StepsNamed names place) (hname : name ∈ names) :
    StepsNamed names (place ++ [.key "States", .key name]) := by
  refine List.forall_mem_append.mpr ⟨hplace, ?_⟩
  rw [List.forall_mem_cons, List.forall_mem_singleton]
  exact ⟨Or.inl (by simp [Segment.Plain]), Or.inr ⟨name, hname, rfl⟩⟩

theorem at?_step {v w u : Json} {place : List Segment} {segment : Segment}
    (hw : v.at? place = some w) (hstep : step? w segment = some u) :
    v.at? (place ++ [segment]) = some u := by
  rw [at?_append, hw]
  simp [at?, hstep]

theorem plainPointer_state (place : List Segment) (name : String) :
    plainPointer (place ++ [.key "States"]) ++ "/" ++ name =
      plainPointer (place ++ [.key "States", .key name]) := by
  apply String.toList_inj.mp
  simp [plainPointer, Segment.plainText]

theorem plainPointer_branch (place : List Segment) (n : Nat) :
    plainPointer place ++ "/Branches/" ++ toString n ++ "/States" =
      plainPointer (place ++ [.key "Branches", .index n] ++ [.key "States"]) := by
  apply String.toList_inj.mp
  simp [plainPointer, Segment.plainText]

theorem plainPointer_iterator (place : List Segment) :
    plainPointer place ++ "/Iterator/States" =
      plainPointer (place ++ [.key "Iterator"] ++ [.key "States"]) := by
  apply String.toList_inj.mp
  simp [plainPointer, Segment.plainText]

section Located

variable {v : Json} {names : List String}

mutual

/-- The scopes of a machine that is read from a place stand inside that place. -/
theorem standsAt_machine (hv : v.WellFormed) (place : List Segment)
    (hsteps : StepsNamed names place) (w : Json) (hw : v.at? place = some w) : (m : Machine) →
    Machine.ofJson w = .ok m →
    NamesIn names (Machine.scopes (plainPointer (place ++ [.key "States"])) m) →
      ∀ scope ∈ Machine.scopes (plainPointer (place ++ [.key "States"])) m,
        ∃ inside, scope.StandsAt v names inside
  | ⟨comment, startAt, own, extra⟩ => by
      intro hread hnames
      obtain ⟨u, hstep, hstates⟩ := machine_read hread
      have hu := at?_step hw hstep
      have hown : ∀ name s, (name, s) ∈ own →
          ∃ u, v.at? (place ++ [.key "States", .key name]) = some u ∧ State.ofJson u = .ok s := by
        intro name s hmem
        obtain ⟨value, hvalue, hstate⟩ := states_read (wellFormed_of_at? hv hu) hstates name s hmem
        exact ⟨value, by simpa using at?_step hu hvalue, hstate⟩
      rw [Machine.scopes] at hnames ⊢
      rw [NamesIn, List.forall_mem_cons] at hnames
      rw [List.forall_mem_cons]
      exact ⟨⟨place, rfl, ⟨w, hw⟩, hown, hsteps⟩,
        standsAt_nested hv place hsteps own hown hnames.1 hnames.2⟩

theorem standsAt_branches (hv : v.WellFormed) (place : List Segment)
    (hsteps : StepsNamed names place) (n : Nat) : (ms : List Machine) →
    (∀ i m, ms[i]? = some m → ∃ w, v.at? (place ++ [.key "Branches", .index (n + i)]) = some w ∧
      Machine.ofJson w = .ok m) →
    NamesIn names (branchScopes (plainPointer place) n ms) →
      ∀ scope ∈ branchScopes (plainPointer place) n ms, ∃ inside, scope.StandsAt v names inside
  | [] => by simp [branchScopes]
  | m :: rest => by
      intro hread hnames
      rw [branchScopes, plainPointer_branch] at hnames ⊢
      rw [NamesIn, List.forall_mem_append] at hnames
      rw [List.forall_mem_append]
      obtain ⟨w, hw, hmachine⟩ := hread 0 m rfl
      refine ⟨standsAt_machine hv _ (hsteps.append ?_) w hw m hmachine hnames.1,
        standsAt_branches hv place hsteps (n + 1) rest (fun i machine hi => ?_) hnames.2⟩
      · simp [Segment.Plain]
      · rw [Nat.add_right_comm, Nat.add_assoc]
        exact hread (i + 1) machine hi

theorem standsAt_state (hv : v.WellFormed) (place : List Segment)
    (hsteps : StepsNamed names place) (w : Json) (hw : v.at? place = some w) : (s : State) →
    State.ofJson w = .ok s →
    NamesIn names (State.scopes (plainPointer place) s) →
      ∀ scope ∈ State.scopes (plainPointer place) s, ∃ inside, scope.StandsAt v names inside
  | .pass _ | .succeed _ | .fail _ | .wait _ | .task _ | .interaction _ | .choice _ => by
      simp [State.scopes]
  | .parallel p branches => by
      intro hread hnames
      rw [State.scopes] at hnames ⊢
      obtain ⟨items, hstep, hitems⟩ := branches_read hread
      refine standsAt_branches hv place hsteps 0 branches (fun i m hi => ?_) hnames
      obtain ⟨item, hitem, hmachine⟩ := exists_of_forall₂ hitems hi
      have hindex : step? (.arr items) (.index i) = some item := hitem
      refine ⟨item, ?_, hmachine⟩
      rw [Nat.zero_add]
      simpa using at?_step (at?_step hw hstep) hindex
  | .map m iterator => by
      intro hread hnames
      rw [State.scopes, plainPointer_iterator] at hnames ⊢
      obtain ⟨u, hstep, hmachine⟩ := iterator_read hread
      refine standsAt_machine hv _ (hsteps.append ?_) u (at?_step hw hstep) iterator hmachine hnames
      simp [Segment.Plain]

theorem standsAt_nested (hv : v.WellFormed) (place : List Segment)
    (hsteps : StepsNamed names place) : (own : List (String × State)) →
    (∀ name s, (name, s) ∈ own →
      ∃ u, v.at? (place ++ [.key "States", .key name]) = some u ∧ State.ofJson u = .ok s) →
    (∀ name ∈ Entries.keys own, name ∈ names) →
    NamesIn names (nestedScopes (plainPointer (place ++ [.key "States"])) own) →
      ∀ scope ∈ nestedScopes (plainPointer (place ++ [.key "States"])) own,
        ∃ inside, scope.StandsAt v names inside
  | [] => by simp [nestedScopes]
  | (name, s) :: rest => by
      intro hread hkeys hnames
      rw [nestedScopes, plainPointer_state] at hnames ⊢
      rw [NamesIn, List.forall_mem_append] at hnames
      rw [Entries.keys_cons, List.forall_mem_cons] at hkeys
      rw [List.forall_mem_append]
      obtain ⟨u, hu, hstate⟩ := hread name s List.mem_cons_self
      exact ⟨standsAt_state hv _ (hsteps.state hkeys.1) u hu s hstate hnames.1,
        standsAt_nested hv place hsteps rest
          (fun other t hmem => hread other t (List.mem_cons_of_mem _ hmem)) hkeys.2 hnames.2⟩

end

/-- Every scope of a document stands at a place of the value that the document is read from. -/
theorem standsAt_document {members : Entries Json} {d : Document}
    (hv : (Json.obj members).WellFormed) (hfrom : d.ReadFrom members) :
    ∀ scope ∈ d.scopes, ∃ place, scope.StandsAt (.obj members) d.stateNames place := by
  have hnames : NamesIn d.stateNames d.scopes := by
    intro scope hscope name hname
    exact List.mem_flatMap.mpr ⟨scope, hscope, hname⟩
  obtain ⟨u, hu, hread⟩ := hfrom.states
  have hown : ∀ name s, (name, s) ∈ d.states →
      ∃ w, (Json.obj members).at? ([] ++ [.key "States", .key name]) = some w ∧
        State.ofJson w = .ok s := by
    intro name s hmem
    have hwell := wellFormed_of_mem hv.2 (Entries.mem_of_get? hu)
    obtain ⟨w, hw, hstate⟩ := states_read hwell hread name s hmem
    have hstep : step? (.obj members) (.key "States") = some u := hu
    have hstates : (Json.obj members).at? ([] ++ [.key "States"]) = some u := at?_step rfl hstep
    exact ⟨w, at?_step hstates hw, hstate⟩
  have hempty : StepsNamed d.stateNames [] := by simp [StepsNamed]
  rw [Document.scopes, List.forall_mem_append, List.forall_mem_cons]
  rw [Document.scopes, NamesIn, List.forall_mem_append, List.forall_mem_cons] at hnames
  refine ⟨⟨⟨[], rfl, ⟨_, rfl⟩, hown, hempty⟩, ?_⟩, ?_⟩
  · exact standsAt_nested hv [] hempty d.states hown hnames.1.1 hnames.1.2
  · cases hhandler : d.failureHandler? with
    | none => simp [handlerScopes]
    | some handler =>
        cases handler with
        | parallel p branches =>
            obtain ⟨decorators, value, hdecorators, hvalue, hstate⟩ := hfrom.handler hhandler
            rw [hhandler] at hnames
            have hplace : (Json.obj members).at? [.key "Decorators", .key "TaskFailureHandler"] =
                some value := by
              simp [at?, step?, hdecorators, hvalue]
            have hscopes := standsAt_state hv [.key "Decorators", .key "TaskFailureHandler"]
              (hempty.append (by simp [Segment.Plain])) value hplace _ hstate
            rw [State.scopes] at hscopes
            exact hscopes hnames.2
        | _ => simp [handlerScopes]

end Located

/-! ## Breaches -/

/-- A breach is about a state of a scope; if it is about a reference, the state makes it. -/
def Breach.About (b : Breach) (scope : Scope) : Prop :=
  ∃ name own, (name, own) ∈ scope.states ∧ b.path = scope.path ++ "/" ++ name ∧
    ∀ path other ref, b = .dangling path other ref → other = name ∧ ref ∈ own.references

theorem mem_scope_breaches {scope : Scope} {b : Breach} (hb : b ∈ scope.breaches) :
    b = .unknownStart scope.path scope.startAt ∨ b.About scope := by
  rw [Scope.breaches_eq, Scope.unresolved, List.mem_append, List.mem_flatMap] at hb
  rcases hb with hstart | ⟨⟨name, own⟩, hentry, hmade⟩
  · split at hstart
    · cases hstart
    · exact Or.inl (List.mem_singleton.mp hstart)
  · obtain ⟨ref, href, rfl⟩ := List.mem_map.mp hmade
    refine Or.inr ⟨name, own, hentry, rfl, fun path other target heq => ?_⟩
    cases heq
    exact ⟨rfl, (List.mem_filter.mp href).1⟩

theorem mem_handlerBreaches {s : Settings} {d : Document} {b : Breach} {n : Nat}
    {rules : List Catcher} (hb : b ∈ handlerBreaches s d n rules) :
    ∃ i c, rules[i]? = some c ∧ b = .handlerDangling (n + i) c.next := by
  induction rules generalizing n with
  | nil => cases hb
  | cons c rest ih =>
      rw [handlerBreaches, List.mem_append] at hb
      rcases hb with hfirst | hrest
      · split at hfirst
        · cases hfirst
        · exact ⟨0, c, rfl, List.mem_singleton.mp hfirst⟩
      · obtain ⟨i, other, hi, heq⟩ := ih hrest
        refine ⟨i + 1, other, hi, ?_⟩
        rw [heq, Nat.add_right_comm, Nat.add_assoc]

theorem about_of_has {scope : Scope} {name : String} {b : Breach} (hhas : scope.has name = true)
    (hpath : b.path = scope.path ++ "/" ++ name)
    (hnot : ∀ path other ref, b ≠ .dangling path other ref) : b.About scope := by
  obtain ⟨own, hget⟩ := Entries.mem_keys_iff_get?.mp (Entries.has_iff.mp hhas)
  exact ⟨name, own, Entries.mem_of_get? hget, hpath, fun path other ref heq =>
    absurd heq (hnot path other ref)⟩

theorem has_of_mem_parallels {scope : Scope} {name : String} (hname : name ∈ scope.parallels) :
    scope.has name = true := by
  rw [Scope.parallels, List.mem_map] at hname
  obtain ⟨entry, hentry, rfl⟩ := hname
  exact Entries.has_iff.mpr (Entries.mem_keys_of_mem (List.mem_filter.mp hentry).1)

theorem mem_helperBreaches {s : Settings} {scope : Scope} {b : Breach}
    {before parallels : List String} (hsome : ∀ name ∈ parallels, scope.has name = true)
    (hb : b ∈ helperBreaches s scope before parallels) : b.About scope := by
  induction parallels generalizing before with
  | nil => cases hb
  | cons name rest ih =>
      rw [List.forall_mem_cons] at hsome
      rw [helperBreaches, List.mem_append, List.mem_append] at hb
      rcases hb with (htaken | hshared) | hrest
      · split at htaken
        · next hhas =>
            rw [List.mem_singleton] at htaken
            subst htaken
            exact about_of_has hhas rfl (by simp)
        · cases htaken
      · obtain ⟨first, -, rfl⟩ := List.mem_map.mp hshared
        exact about_of_has hsome.1 rfl (by simp)
      · exact ih hsome.2 hrest

/-- A breach is about the whole document, the start of a scope, one of its states, or a catch rule
of the failure handler. -/
theorem breach_cases {s : Settings} {d : Document} {b : Breach} (hb : b ∈ breaches s d) :
    (∃ repeated, b = .duplicated repeated) ∨
      (∃ scope ∈ d.scopes, b = .unknownStart scope.path scope.startAt ∨ b.About scope) ∨
      ∃ handler, d.failureHandler? = some handler ∧
        ∃ n c, handler.catchers[n]? = some c ∧ b = .handlerDangling n c.next := by
  have htop := topScope_mem d
  simp only [breaches, List.mem_append] at hb
  rcases hb with (((hnames | hdangling) | hhandler) | hreserved) | hhelpers
  · unfold duplicateNames at hnames
    split at hnames
    · cases hnames
    · exact Or.inl ⟨_, List.mem_singleton.mp hnames⟩
  · obtain ⟨scope, hscope, hmem⟩ := List.mem_flatMap.mp hdangling
    exact Or.inr (Or.inl ⟨scope, hscope, mem_scope_breaches hmem⟩)
  · unfold handlerReferences at hhandler
    split at hhandler
    · next handler hsome =>
        obtain ⟨n, c, hc, heq⟩ := mem_handlerBreaches hhandler
        rw [Nat.zero_add] at heq
        exact Or.inr (Or.inr ⟨handler, hsome, n, c, hc, heq⟩)
    · cases hhandler
  · obtain ⟨name, hname, rfl⟩ := List.mem_map.mp hreserved
    have hhas := (List.mem_filter.mp hname).2
    exact Or.inr (Or.inl ⟨_, htop, Or.inr (about_of_has hhas rfl (by simp))⟩)
  · rw [mergeHelpers, List.mem_append] at hhelpers
    rcases hhelpers with hscopes | hhandler
    · obtain ⟨scope, hscope, hmem⟩ := List.mem_flatMap.mp hscopes
      have habout := mem_helperBreaches (fun name hname => has_of_mem_parallels hname) hmem
      exact Or.inr (Or.inl ⟨scope, hscope, Or.inr habout⟩)
    · split at hhandler
      · split at hhandler
        · next hhas =>
            rw [List.mem_singleton] at hhandler
            subst hhandler
            exact Or.inr (Or.inl ⟨_, htop, Or.inr (about_of_has hhas rfl (by simp))⟩)
        · cases hhandler
      · cases hhandler

theorem parentPath_states (place : List Segment) :
    parentPath (plainPointer (place ++ [.key "States"])) = plainPointer place := by
  have hpath : (plainPointer (place ++ [.key "States"])).toList =
      (plainPointer place).toList ++ "/States".toList := by
    rw [plainPointer_append, String.toList_append]
    rfl
  unfold parentPath
  rw [hpath, if_pos (by simp)]
  simp

/-- A breach is about a value at a place to which its path leads; if it is about a reference, the
value is the state that makes it. -/
structure Breach.LocatedAt (b : Breach) (v : Json) (names : List String) (place : List Segment)
    (w : Json) : Prop where
  value : v.at? place = some w
  path : b.path = plainPointer place
  steps : StepsNamed names place
  state : ∀ path name ref, b = .dangling path name ref →
    place.getLast? = some (.key name) ∧ ∃ own, State.ofJson w = .ok own ∧ ref ∈ own.references

theorem Breach.path_unknownStart (scope startAt : String) :
    (Breach.unknownStart scope startAt).path = parentPath scope := rfl

theorem Breach.path_handlerDangling (n : Nat) (target : String) :
    (Breach.handlerDangling n target).path =
      "/Decorators/TaskFailureHandler/Catch/" ++ toString n := rfl

section Document

variable {members : Entries Json} {d : Document}

theorem locatedAt_start {v : Json} {names : List String} {scope : Scope} {place : List Segment}
    (hstands : scope.StandsAt v names place) :
    ∃ w, (Breach.unknownStart scope.path scope.startAt).LocatedAt v names place w := by
  obtain ⟨w, hw⟩ := hstands.machine
  refine ⟨w, hw, ?_, hstands.steps, fun path name ref heq => by cases heq⟩
  rw [Breach.path_unknownStart, hstands.path, parentPath_states]

theorem locatedAt_about {scope : Scope} {v : Json} {names : List String} {place : List Segment}
    (hstands : scope.StandsAt v names place)
    (hnames : ∀ name ∈ Entries.keys scope.states, name ∈ names) {b : Breach}
    (habout : b.About scope) : ∃ place w, b.LocatedAt v names place w := by
  obtain ⟨name, own, hentry, hpath, hreference⟩ := habout
  obtain ⟨u, hu, hstate⟩ := hstands.states name own hentry
  refine ⟨_, u, hu, ?_, hstands.steps.state (hnames name (Entries.mem_keys_of_mem hentry)),
    fun path other ref heq => ?_⟩
  · rw [hpath, hstands.path, plainPointer_state]
  · obtain ⟨rfl, href⟩ := hreference path other ref heq
    exact ⟨by simp, own, hstate, href⟩

theorem locatedAt_handler (hfrom : d.ReadFrom members) {handler : State}
    (hsome : d.failureHandler? = some handler) {n : Nat} {c : Catcher}
    (hc : handler.catchers[n]? = some c) {names : List String} :
    ∃ place w, (Breach.handlerDangling n c.next).LocatedAt (.obj members) names place w := by
  obtain ⟨decorators, value, hdecorators, hvalue, hread⟩ := hfrom.handler hsome
  obtain ⟨items, u, hitems, hu, -⟩ := catchers_read hread hc
  have hhandler : (Json.obj members).at? [.key "Decorators", .key "TaskFailureHandler"] =
      some value := by
    simp [at?, step?, hdecorators, hvalue]
  have hindex : step? (.arr items) (.index n) = some u := hu
  refine ⟨_, u, at?_step (at?_step hhandler hitems) hindex, ?_, ?_,
    fun path name ref heq => by cases heq⟩
  · rw [Breach.path_handlerDangling]
    apply String.toList_inj.mp
    simp [plainPointer, Segment.plainText]
  · simp [StepsNamed, Segment.Plain]

theorem exists_locatedAt {s : Settings} (hv : (Json.obj members).WellFormed)
    (hfrom : d.ReadFrom members) {b : Breach} (hb : b ∈ breaches s d) :
    ∃ place w, b.LocatedAt (.obj members) d.stateNames place w := by
  rcases breach_cases hb with
    ⟨repeated, rfl⟩ | ⟨scope, hscope, hbreach⟩ | ⟨handler, hsome, n, c, hc, rfl⟩
  · obtain ⟨u, hu, -⟩ := hfrom.states
    refine ⟨[.key "States"], u, by simp [at?, step?, hu], rfl, ?_,
      fun path name ref heq => by cases heq⟩
    simp [StepsNamed, Segment.Plain]
  · obtain ⟨place, hstands⟩ := standsAt_document hv hfrom scope hscope
    rcases hbreach with rfl | habout
    · exact ⟨place, locatedAt_start hstands⟩
    · refine locatedAt_about hstands (fun name hname => ?_) habout
      exact List.mem_flatMap.mpr ⟨scope, hscope, hname⟩
  · exact locatedAt_handler hfrom hsome hc

end Document

end StateFlow.Playbook

namespace StateFlow

open StateFlow.Json StateFlow.Playbook

/-- Every finding about a rule has a place in the value that the document is read from, and one
about a reference has the place of the state that makes it.  The path of the finding is the pointer
of the place exactly if no name on the way has a slash or a tilde. -/
theorem ruleFindings_located (s : Settings) (v : Json) (d : Document) (hv : v.WellFormed)
    (hread : Document.ofJson v = .ok d) :
    ∀ f ∈ ruleFindings s d, ∃ b ∈ breaches s d, f = b.toFinding ∧ ∃ place w,
      v.at? place = some w ∧ v.resolve? (pointer place) = some w ∧
      (f.path = some (pointer place) ↔
        ∀ name, .key name ∈ place → '/' ∉ name.toList ∧ '~' ∉ name.toList) ∧
      ((∀ name ∈ d.stateNames, '/' ∉ name.toList ∧ '~' ∉ name.toList) →
        f.path = some (pointer place)) ∧
      ∀ path name ref, b = .dangling path name ref →
        place.getLast? = some (.key name) ∧
          ∃ own, State.ofJson w = .ok own ∧ ref ∈ own.references := by
  obtain ⟨members, rfl, hfrom⟩ := Document.ofJson_eq_ok hread
  intro f hf
  obtain ⟨b, hb, rfl⟩ := List.mem_map.mp hf
  obtain ⟨place, w, hlocated⟩ := exists_locatedAt hv hfrom hb
  have hplain : (∀ segment ∈ place, segment.Plain) ↔
      ∀ name, .key name ∈ place → '/' ∉ name.toList ∧ '~' ∉ name.toList := by
    constructor
    · exact fun hall name hname => hall _ hname
    · intro hall segment hsegment
      cases segment with
      | key name => exact hall name hsegment
      | index n => exact True.intro
  have hpath : b.toFinding.path = some (pointer place) ↔ ∀ segment ∈ place, segment.Plain := by
    rw [← plainPointer_eq_pointer_iff, ← hlocated.path]
    exact Option.some_inj
  refine ⟨b, hb, rfl, place, w, hlocated.value, resolve?_pointer hlocated.value,
    hpath.trans hplain, fun hnames => hpath.mpr fun segment hsegment => ?_, hlocated.state⟩
  rcases hlocated.steps segment hsegment with hstep | ⟨name, hname, rfl⟩
  · exact hstep
  · exact hnames name hname

def strayNext (name : String) : Json := .obj
  [("Playbook", .str "Stray"), ("Comment", .str "A state too few"), ("StartAt", .str name),
    ("States", .obj [(name, .obj
      [("Type", .str "Map"),
        ("Iterator", .obj
          [("StartAt", .str "Work"),
            ("States", .obj [("Work", .obj
              [("Type", .str "Pass"), ("Next", .str "Missing")])])]),
        ("End", .bool true)])])]

theorem ruleFindings_located_strayNext :
    ∃ d, Document.ofJson (strayNext "Each") = .ok d ∧ (strayNext "Each").WellFormed ∧
      (ruleFindings .production d).length = 1 ∧
        ∀ f ∈ ruleFindings .production d, ∃ path w, f.path = some path ∧
          (strayNext "Each").resolve? path = some w := by
  let v := strayNext "Each"
  obtain ⟨d, hd⟩ := exists_of_isOk (x := Document.ofJson v) (by decide +kernel)
  have hv : v.WellFormed := by
    simp [v, strayNext, Json.WellFormed, WellFormedMembers, Entries.Distinct]
  have hcount : (Document.ofJson v).toOption.map
      (fun d => (ruleFindings .production d).length) = some 1 := by
    decide +kernel
  have hnames : (Document.ofJson v).toOption.map Document.stateNames = some ["Each", "Work"] := by
    decide +kernel
  rw [hd, Except.toOption, Option.map_some, Option.some.injEq] at hcount hnames
  refine ⟨d, hd, hv, hcount, fun f hf => ?_⟩
  obtain ⟨b, -, -, place, w, -, hresolve, -, hpath, -⟩ :=
    ruleFindings_located .production v d hv hd f hf
  refine ⟨pointer place, w, hpath ?_, hresolve⟩
  rw [hnames]
  decide

/-- A slash in a name stands in the path as it is, and the path leads nowhere. -/
theorem slash_breaks_path :
    ∃ d f, Document.ofJson (strayNext "Each/All") = .ok d ∧
      shapeFindings .production (strayNext "Each/All") = [] ∧ ruleFindings .production d = [f] ∧
        f.path = some "/States/Each/All/Iterator/States/Work" ∧
          (strayNext "Each/All").resolve? "/States/Each/All/Iterator/States/Work" = none := by
  let v := strayNext "Each/All"
  obtain ⟨d, hd⟩ := exists_of_isOk (x := Document.ofJson v) (by decide +kernel)
  have hshape : (shapeFindings .production v).isEmpty = true := by decide +kernel
  have hpaths : (Document.ofJson v).toOption.map
      (fun d => (ruleFindings .production d).map Finding.path) =
        some [some "/States/Each/All/Iterator/States/Work"] := by
    decide +kernel
  have hresolve : (v.resolve? "/States/Each/All/Iterator/States/Work").isNone = true := by
    decide +kernel
  rw [hd, Except.toOption, Option.map_some, Option.some.injEq, List.map_eq_singleton_iff]
    at hpaths
  obtain ⟨f, hf, hpath⟩ := hpaths
  exact ⟨d, f, hd, List.isEmpty_iff.mp hshape, hf, hpath, Option.isNone_iff_eq_none.mp hresolve⟩

end StateFlow
