import StateFlow.Proofs.Entries
import StateFlow.Proofs.JsonScalar

/-!
# Written text reads back

The pretty form of a value is read as the value: `parse_prettyText`.  The proof follows the writer,
one step of the reader for every line of a container.  Twice the length of a text is fuel enough,
and the lines that are left to read bound the fuel that is left.
-/

namespace StateFlow.Json

mutual

def numbers : Json → List Number
  | .num n => [n]
  | .arr items => numbersItems items
  | .obj members => numbersMembers members
  | _ => []

def numbersItems : List Json → List Number
  | [] => []
  | v :: rest => numbers v ++ numbersItems rest

def numbersMembers : List (String × Json) → List Number
  | [] => []
  | (_, v) :: rest => numbers v ++ numbersMembers rest

end

namespace Reader

open StateFlow.Text

/-! ## Blanks -/

theorem skipFrom_of_blank {c : Char} (hc : isBlank c = false) (text : List Char) (pos : Position) :
    skipFrom (c :: text) pos = ⟨c :: text, pos⟩ := by
  rw [skipFrom, if_neg (by simp [hc])]

theorem skipFrom_blanks {blanks : List Char} (hblanks : ∀ c ∈ blanks, isBlank c = true)
    (text : List Char) (pos : Position) :
    ∃ pos', skipFrom (blanks ++ text) pos = skipFrom text pos' := by
  induction blanks generalizing pos with
  | nil => exact ⟨pos, rfl⟩
  | cons c blanks ih =>
      rw [List.forall_mem_cons] at hblanks
      rw [List.cons_append, skipFrom, if_pos hblanks.1]
      exact ih hblanks.2 _

theorem isBlank_of_mem_breakLine {unit level : Nat} {c : Char} (hc : c ∈ breakLine unit level) :
    isBlank c = true := by
  rcases List.mem_cons.mp hc with rfl | hspace
  · rfl
  · rw [List.eq_of_mem_replicate hspace]
    rfl

theorem skipBlanks_blanks {blanks : List Char} (hblanks : ∀ c ∈ blanks, isBlank c = true)
    {c : Char} (hc : isBlank c = false) (text : List Char) (pos : Position) :
    ∃ pos', skipBlanks ⟨blanks ++ c :: text, pos⟩ = ⟨c :: text, pos'⟩ := by
  obtain ⟨pos', hskip⟩ := skipFrom_blanks hblanks (c :: text) pos
  exact ⟨pos', by rw [skipBlanks, hskip, skipFrom_of_blank hc]⟩

/-! ## Between the parts of a container -/

def Begins (text : List Char) : Prop :=
  ∃ c rest, text = c :: rest ∧ isBlank c = false ∧ c ≠ ',' ∧ c ≠ ']'

theorem Begins.append {text : List Char} (htext : Begins text) (rest : List Char) :
    Begins (text ++ rest) := by
  obtain ⟨c, tail, rfl, hc⟩ := htext
  exact ⟨c, tail ++ rest, rfl, hc⟩

section Separators

variable {blanks : List Char} (hblanks : ∀ c ∈ blanks, isBlank c = true)

include hblanks

theorem nextItem_first {text : List Char} (htext : Begins text) (pos : Position) :
    ∃ pos', nextItem true ⟨blanks ++ text, pos⟩ = .ok (.inl ⟨text, pos'⟩) := by
  obtain ⟨c, rest, rfl, hc, -, hclose⟩ := htext
  obtain ⟨pos', hskip⟩ := skipBlanks_blanks hblanks hc rest pos
  refine ⟨pos', ?_⟩
  simp only [nextItem, hskip]
  split
  · next heq => cases heq
  · next heq => exact absurd (List.cons.inj heq).1 hclose
  · rfl
  · rfl

theorem nextItem_comma {text : List Char} (htext : Begins text) (pos : Position) :
    ∃ pos', nextItem false ⟨',' :: (blanks ++ text), pos⟩ = .ok (.inl ⟨text, pos'⟩) := by
  obtain ⟨c, rest, rfl, hc, -, hclose⟩ := htext
  obtain ⟨pos', hskip⟩ := skipBlanks_blanks hblanks hc rest (pos.skip 1)
  refine ⟨pos', ?_⟩
  have hcomma : skipBlanks ⟨',' :: (blanks ++ c :: rest), pos⟩ =
      ⟨',' :: (blanks ++ c :: rest), pos⟩ := skipFrom_of_blank rfl _ _
  simp only [nextItem, hcomma, hskip, Bool.false_eq_true, if_false]
  split
  · next heq => cases heq
  · next heq => exact absurd (List.cons.inj heq).1 hclose
  · rfl

theorem nextItem_close (first : Bool) (rest : List Char) (pos : Position) :
    ∃ pos', nextItem first ⟨blanks ++ ']' :: rest, pos⟩ = .ok (.inr ⟨rest, pos'⟩) := by
  obtain ⟨pos', hskip⟩ := skipBlanks_blanks hblanks (c := ']') rfl rest pos
  exact ⟨pos'.skip 1, by simp only [nextItem, hskip]⟩

theorem nextKey_first (text : List Char) (pos : Position) :
    ∃ pos', nextKey true ⟨blanks ++ '"' :: text, pos⟩ = .ok (.inl ⟨text, pos'⟩) := by
  obtain ⟨pos', hskip⟩ := skipBlanks_blanks hblanks (c := '"') rfl text pos
  exact ⟨pos'.skip 1, by simp only [nextKey, hskip]; rfl⟩

theorem nextKey_comma (text : List Char) (pos : Position) :
    ∃ pos', nextKey false ⟨',' :: (blanks ++ '"' :: text), pos⟩ = .ok (.inl ⟨text, pos'⟩) := by
  obtain ⟨pos', hskip⟩ := skipBlanks_blanks hblanks (c := '"') rfl text (pos.skip 1)
  have hcomma : skipBlanks ⟨',' :: (blanks ++ '"' :: text), pos⟩ =
      ⟨',' :: (blanks ++ '"' :: text), pos⟩ := skipFrom_of_blank rfl _ _
  exact ⟨pos'.skip 1, by simp only [nextKey, hcomma, hskip]; rfl⟩

theorem nextKey_close (first : Bool) (rest : List Char) (pos : Position) :
    ∃ pos', nextKey first ⟨blanks ++ '\x7d' :: rest, pos⟩ = .ok (.inr ⟨rest, pos'⟩) := by
  obtain ⟨pos', hskip⟩ := skipBlanks_blanks hblanks (c := '\x7d') rfl rest pos
  exact ⟨pos'.skip 1, by simp only [nextKey, hskip]⟩

end Separators

theorem ends_breakLine (unit level : Nat) (text : List Char) :
    Ends (breakLine unit level ++ text) := by
  intro c hc
  obtain rfl : '\n' = c := by simpa [breakLine] using hc
  decide

/-- The lines of a container behind the first one, each behind a comma. -/
def moreLines (unit level : Nat) (lines : List (List Char)) : List Char :=
  lines.flatMap fun line => ',' :: (breakLine unit (level + 1) ++ line)

theorem moreLines_cons (unit level : Nat) (line : List Char) (lines : List (List Char)) :
    moreLines unit level (line :: lines) =
      ',' :: (breakLine unit (level + 1) ++ (line ++ moreLines unit level lines)) := by
  simp [moreLines]

theorem length_moreLines_cons (unit level : Nat) (line : List Char) (lines : List (List Char)) :
    line.length + (moreLines unit level lines).length + 1 ≤
      (moreLines unit level (line :: lines)).length := by
  rw [moreLines_cons]
  simp only [List.length_append, List.length_cons]
  omega

theorem ends_moreLines (unit level : Nat) (lines : List (List Char)) (text : List Char) :
    Ends (moreLines unit level lines ++ (breakLine unit level ++ text)) := by
  cases lines with
  | nil => exact ends_breakLine unit level text
  | cons line lines =>
      intro c hc
      obtain rfl : ',' = c := by simpa [moreLines_cons] using hc
      decide

theorem joinWith_cons (unit level : Nat) (line : List Char) (lines : List (List Char)) :
    joinWith (',' :: breakLine unit (level + 1)) (line :: lines) =
      line ++ moreLines unit level lines := by
  induction lines generalizing line with
  | nil => simp [joinWith, moreLines]
  | cons next lines ih => simp [joinWith, ih, moreLines_cons]

theorem bracketed_cons (unit level : Nat) (first last : Char) (line : List Char)
    (lines : List (List Char)) (rest : List Char) :
    bracketed unit level first last (line :: lines) ++ rest =
      first :: (breakLine unit (level + 1) ++ (line
        ++ (moreLines unit level lines ++ (breakLine unit level ++ last :: rest)))) := by
  simp [bracketed, joinWith_cons]

theorem length_bracketed_cons (unit level : Nat) (first last : Char) (line : List Char)
    (lines : List (List Char)) :
    line.length + (moreLines unit level lines).length + 2 ≤
      (bracketed unit level first last (line :: lines)).length := by
  have htext := congrArg List.length (bracketed_cons unit level first last line lines [])
  simp only [List.length_append, List.length_cons, List.length_nil] at htext
  omega

/-! ## Steps of the reader -/

theorem Reads.map {α β : Type} {result : Except Fault (α × Cursor)} {x : α} {rest : List Char}
    (hreads : Reads result x rest) (f : α → β) :
    Reads (result.map fun read => (f read.1, read.2)) (f x) rest := by
  obtain ⟨pos, rfl⟩ := hreads
  exact ⟨pos, rfl⟩

theorem value_of_scalar {c : Char} (hblank : isBlank c = false) (hlist : c ≠ '[')
    (hobject : c ≠ '\x7b') {fuel depth : Nat} (hfuel : 0 < fuel) {text rest : List Char}
    {pos : Position} {v : Json} (hscalar : Reads (scalar ⟨c :: text, pos⟩) v rest) :
    Reads (value fuel depth ⟨c :: text, pos⟩) v rest := by
  obtain ⟨fuel, rfl⟩ := Nat.exists_eq_add_of_lt hfuel
  rw [Nat.zero_add, value, skipBlanks, skipFrom_of_blank hblank]
  split
  · next heq => exact absurd (List.cons.inj heq).1 hlist
  · next heq => exact absurd (List.cons.inj heq).1 hobject
  · exact hscalar

theorem value_list (fuel depth : Nat) (text : List Char) (pos : Position) :
    value (fuel + 1) (depth + 1) ⟨'[' :: text, pos⟩ =
      (items fuel depth [] ⟨text, pos.skip 1⟩).map fun read => (.arr read.1, read.2) := by
  rw [value, skipBlanks, skipFrom_of_blank rfl]
  rfl

theorem value_object (fuel depth : Nat) (text : List Char) (pos : Position) :
    value (fuel + 1) (depth + 1) ⟨'\x7b' :: text, pos⟩ =
      (members fuel depth true [] ⟨text, pos.skip 1⟩).map fun read => (.obj read.1, read.2) := by
  rw [value, skipBlanks, skipFrom_of_blank rfl]
  rfl

theorem value_space (fuel depth : Nat) (text : List Char) (pos : Position) :
    value (fuel + 1) depth ⟨' ' :: text, pos⟩ = value (fuel + 1) depth ⟨text, pos.after ' '⟩ := by
  have hskip : skipBlanks ⟨' ' :: text, pos⟩ = skipBlanks ⟨text, pos.after ' '⟩ := rfl
  rw [value, value, hskip]

theorem items_close {blanks : List Char} (hblanks : ∀ c ∈ blanks, isBlank c = true)
    {fuel : Nat} (hfuel : 0 < fuel) (depth : Nat) (read : List Json) (rest : List Char)
    (pos : Position) :
    Reads (items fuel depth read ⟨blanks ++ ']' :: rest, pos⟩) read.reverse rest := by
  obtain ⟨fuel, rfl⟩ := Nat.exists_eq_add_of_lt hfuel
  obtain ⟨pos', hclose⟩ := nextItem_close hblanks read.isEmpty rest pos
  exact ⟨pos', by rw [Nat.zero_add, items, hclose]; rfl⟩

theorem items_step {fuel depth : Nat} (read : List Json) {v : Json} {cur next : Cursor}
    {rest : List Char} (hnext : nextItem read.isEmpty cur = .ok (.inl next))
    (hvalue : Reads (value fuel depth next) v rest) :
    ∃ pos, items (fuel + 1) depth read cur = items fuel depth (v :: read) ⟨rest, pos⟩ := by
  obtain ⟨pos, hvalue⟩ := hvalue
  refine ⟨pos, ?_⟩
  rw [items, hnext]
  simp only [bind, Except.bind, hvalue]

theorem members_close {blanks : List Char} (hblanks : ∀ c ∈ blanks, isBlank c = true)
    {fuel : Nat} (hfuel : 0 < fuel) (depth : Nat) (first : Bool) (read : Entries Json)
    (rest : List Char) (pos : Position) :
    Reads (members fuel depth first read ⟨blanks ++ '\x7d' :: rest, pos⟩) read rest := by
  obtain ⟨fuel, rfl⟩ := Nat.exists_eq_add_of_lt hfuel
  obtain ⟨pos', hclose⟩ := nextKey_close hblanks first rest pos
  exact ⟨pos', by rw [Nat.zero_add, members, hclose]; rfl⟩

theorem members_step {fuel depth : Nat} {first : Bool} (read : Entries Json) {key : String}
    {v : Json} {cur : Cursor} {text rest : List Char} {pos : Position}
    (hnext : nextKey first cur = .ok (.inl ⟨escape key.toList ++ '"' :: ':' :: ' ' :: text, pos⟩))
    (hvalue : ∀ pos, Reads (value fuel depth ⟨text, pos⟩) v rest) :
    ∃ pos', members (fuel + 1) depth first read cur =
      members fuel depth false (Entries.insert read key v) ⟨rest, pos'⟩ := by
  obtain ⟨pos₁, hkey⟩ := stringBody_escape key.toList (':' :: ' ' :: text) pos []
  rw [List.reverse_nil, List.nil_append, String.ofList_toList] at hkey
  have hcolon : colon ⟨':' :: ' ' :: text, pos₁⟩ = .ok ⟨' ' :: text, pos₁.skip 1⟩ := by
    rw [colon, skipBlanks, skipFrom_of_blank rfl]
    rfl
  obtain ⟨pos₂, hvalue⟩ := hvalue ((pos₁.skip 1).after ' ')
  refine ⟨pos₂, ?_⟩
  cases fuel with
  | zero => cases hvalue
  | succ fuel =>
      rw [members, hnext]
      simp only [bind, Except.bind, string, hkey, hcolon, value_space, hvalue]

/-! ## Written values -/

theorem quote_append (key : String) (text : List Char) :
    quote key ++ text = '"' :: (escape key.toList ++ '"' :: text) := by
  simp [quote]

theorem exists_first_number {n : Int}
    (hfits : -0x8000000000000000 ≤ n ∧ n < 0x10000000000000000) :
    ∃ c text, (Number.int n hfits).text = c :: text ∧ (c = '-' ∨ isDigit c = true) := by
  rw [Number.text]
  split
  · exact ⟨'-', _, rfl, Or.inl rfl⟩
  · obtain ⟨first, more, hshape, hfirst⟩ := exists_cons_toDigits n.natAbs
    exact ⟨first, more, hshape, Or.inr hfirst⟩

theorem number_first {c : Char} (hc : c = '-' ∨ isDigit c = true) :
    isBlank c = false ∧ c ≠ ',' ∧ c ≠ ']' ∧ c ≠ '[' ∧ c ≠ '\x7b' := by
  rcases hc with rfl | hdigit
  · decide
  · have hne : ∀ d, isDigit d = false → c ≠ d := fun d => ne_of_isDigit hdigit
    refine ⟨?_, hne _ rfl, hne _ rfl, hne _ rfl, hne _ rfl⟩
    simp [isBlank, hne ' ' rfl, hne '\n' rfl, hne '\t' rfl, hne '\r' rfl]

theorem begins_bracketed {unit level : Nat} {first : Char} (last : Char)
    (hfirst : isBlank first = false ∧ first ≠ ',' ∧ first ≠ ']') (lines : List (List Char)) :
    Begins (bracketed unit level first last lines) := by
  cases lines with
  | nil => exact ⟨first, [last], rfl, hfirst⟩
  | cons line lines =>
      rw [← List.append_nil (bracketed _ _ _ _ _), bracketed_cons]
      exact ⟨first, _, rfl, hfirst⟩

theorem begins_prettyAt (unit level : Nat) {v : Json} (hints : ∀ x, .float x ∉ v.numbers) :
    Begins (prettyAt unit level v) := by
  cases v with
  | null => exact ⟨'n', _, rfl, by decide⟩
  | bool b => cases b with
    | true => exact ⟨'t', _, rfl, by decide⟩
    | false => exact ⟨'f', _, rfl, by decide⟩
  | num n =>
      cases n with
      | int n hfits =>
          obtain ⟨c, text, htext, hc⟩ := exists_first_number hfits
          have hfirst := number_first hc
          exact ⟨c, text, htext, hfirst.1, hfirst.2.1, hfirst.2.2.1⟩
      | float x => exact absurd (by simp [numbers]) (hints x)
  | str text => exact ⟨'"', _, rfl, by decide⟩
  | arr items =>
      rw [prettyAt]
      exact begins_bracketed _ (by decide) _
  | obj members =>
      rw [prettyAt]
      exact begins_bracketed _ (by decide) _

mutual

/-- The text of a value is read as the value, with twice its length as fuel. -/
theorem value_prettyAt (unit : Nat) : (v : Json) → (level fuel depth : Nat) → (rest : List Char) →
    (pos : Position) → Ends rest → 2 * (prettyAt unit level v).length ≤ fuel → v.depth ≤ depth →
    v.WellFormed → (∀ x, .float x ∉ v.numbers) →
    Reads (value fuel depth ⟨prettyAt unit level v ++ rest, pos⟩) v rest
  | .null, level, fuel, depth, rest, pos, _, hfuel, _, _, _ =>
      value_of_scalar (by decide) (by decide) (by decide)
        (Nat.lt_of_lt_of_le (Nat.succ_pos 7) hfuel) ⟨_, rfl⟩
  | .bool true, level, fuel, depth, rest, pos, _, hfuel, _, _, _ =>
      value_of_scalar (by decide) (by decide) (by decide)
        (Nat.lt_of_lt_of_le (Nat.succ_pos 7) hfuel) ⟨_, rfl⟩
  | .bool false, level, fuel, depth, rest, pos, _, hfuel, _, _, _ =>
      value_of_scalar (by decide) (by decide) (by decide)
        (Nat.lt_of_lt_of_le (Nat.succ_pos 9) hfuel) ⟨_, rfl⟩
  | .num (.int n hfits), level, fuel, depth, rest, pos, hrest, hfuel, _, _, _ => by
      obtain ⟨c, text, htext, hc⟩ := exists_first_number hfits
      obtain ⟨hblank, -, -, hlist, hobject⟩ := number_first hc
      have hscalar := scalar_int hfits pos hrest
      simp only [prettyAt, scalarText, htext, List.length_cons, List.cons_append] at hfuel hscalar ⊢
      exact value_of_scalar hblank hlist hobject (by omega) hscalar
  | .num (.float x), level, fuel, depth, rest, pos, _, _, _, _, hints => by
      exact absurd (by simp [numbers]) (hints x)
  | .str text, level, fuel, depth, rest, pos, _, hfuel, _, _, _ => by
      have hscalar := scalar_str text rest pos
      simp only [prettyAt, scalarText, quote, List.length_cons, List.cons_append] at hfuel hscalar ⊢
      exact value_of_scalar (by decide) (by decide) (by decide) (by omega) hscalar
  | .arr [], level, fuel + 2, depth + 1, rest, pos, _, _, _, _, _ => by
      rw [show prettyAt unit level (.arr []) ++ rest = '[' :: ([] ++ ']' :: rest) from rfl,
        value_list]
      exact (items_close (by simp) (Nat.succ_pos fuel) depth [] rest _).map Json.arr
  | .arr (v :: vs), level, fuel + 2, depth + 1, rest, pos, _, hfuel, hdepth, hwell, hints => by
      rw [Json.depth, depthItems] at hdepth
      rw [WellFormed, WellFormedItems] at hwell
      simp only [numbers, numbersItems, List.mem_append, not_or, forall_and] at hints
      rw [prettyAt, prettyItems] at hfuel ⊢
      have hlength := length_bracketed_cons unit level '[' ']' (prettyAt unit (level + 1) v)
        (prettyItems unit (level + 1) vs)
      rw [bracketed_cons, value_list]
      obtain ⟨pos₁, hnext⟩ := nextItem_first (fun c => isBlank_of_mem_breakLine)
        ((begins_prettyAt unit (level + 1) hints.1).append _) (pos.skip 1)
      obtain ⟨pos₂, hstep⟩ := items_step [] hnext
        (value_prettyAt unit v (level + 1) fuel depth _ pos₁ (ends_moreLines unit level _ _)
          (by omega) (by omega) hwell.1 hints.1)
      rw [hstep]
      exact (items_prettyItems unit vs level fuel depth [v] rest pos₂ (by simp) (by omega)
        (by omega) hwell.2 hints.2).map Json.arr
  | .obj [], level, fuel + 2, depth + 1, rest, pos, _, _, _, _, _ => by
      rw [show prettyAt unit level (.obj []) ++ rest = '\x7b' :: ([] ++ '\x7d' :: rest) from rfl,
        value_object]
      exact (members_close (by simp) (Nat.succ_pos fuel) depth true [] rest _).map Json.obj
  | .obj ((k, v) :: ms), level, fuel + 2, depth + 1, rest, pos, _, hfuel, hdepth, hwell, hints => by
      rw [Json.depth, depthMembers] at hdepth
      rw [WellFormed, WellFormedMembers] at hwell
      simp only [numbers, numbersMembers, List.mem_append, not_or, forall_and] at hints
      rw [prettyAt, prettyMembers] at hfuel ⊢
      have hlength := length_bracketed_cons unit level '\x7b' '\x7d'
        (quote k ++ ':' :: ' ' :: prettyAt unit (level + 1) v) (prettyMembers unit (level + 1) ms)
      rw [List.length_append, List.length_cons, List.length_cons] at hlength
      rw [bracketed_cons, value_object, List.append_assoc, quote_append, List.cons_append,
        List.cons_append]
      obtain ⟨pos₁, hnext⟩ := nextKey_first (fun c => isBlank_of_mem_breakLine) _ (pos.skip 1)
      obtain ⟨pos₂, hstep⟩ := members_step [] hnext fun pos =>
        value_prettyAt unit v (level + 1) fuel depth _ pos (ends_moreLines unit level _ _)
          (by omega) (by omega) hwell.2.1 hints.1
      rw [hstep]
      exact (members_prettyMembers unit ms level fuel depth [(k, v)] rest pos₂ (by omega)
        (by omega) hwell.1 hwell.2.2 hints.2).map Json.obj
  | v, level, 0, depth, rest, pos, _, hfuel, _, _, hints => by
      obtain ⟨c, text, htext, -⟩ := begins_prettyAt unit level hints
      simp [htext] at hfuel
  | v, level, 1, depth, rest, pos, _, hfuel, _, _, hints => by
      obtain ⟨c, text, htext, -⟩ := begins_prettyAt unit level hints
      simp [htext] at hfuel
      omega
  | .arr items, level, fuel, 0, rest, pos, _, _, hdepth, _, _ => by
      simp [Json.depth] at hdepth
  | .obj members, level, fuel, 0, rest, pos, _, _, hdepth, _, _ => by
      simp [Json.depth] at hdepth

/-- The items behind the first one. -/
theorem items_prettyItems (unit : Nat) : (vs : List Json) → (level fuel depth : Nat) →
    (read : List Json) → (rest : List Char) → (pos : Position) → read.isEmpty = false →
    2 * (moreLines unit level (prettyItems unit (level + 1) vs)).length < fuel →
    depthItems vs ≤ depth → WellFormedItems vs → (∀ x, .float x ∉ numbersItems vs) →
    Reads (items fuel depth read ⟨moreLines unit level (prettyItems unit (level + 1) vs)
      ++ (breakLine unit level ++ ']' :: rest), pos⟩) (read.reverse ++ vs) rest
  | [], level, fuel, depth, read, rest, pos, _, hfuel, _, _, _ => by
      rw [List.append_nil]
      exact items_close (fun c => isBlank_of_mem_breakLine) (by omega) depth read rest pos
  | v :: vs, level, fuel + 1, depth, read, rest, pos, hread, hfuel, hdepth, hwell, hints => by
      rw [depthItems] at hdepth
      rw [WellFormedItems] at hwell
      simp only [numbersItems, List.mem_append, not_or, forall_and] at hints
      rw [prettyItems] at hfuel ⊢
      have hlength := length_moreLines_cons unit level (prettyAt unit (level + 1) v)
        (prettyItems unit (level + 1) vs)
      rw [moreLines_cons]
      obtain ⟨pos₁, hnext⟩ := nextItem_comma (fun c => isBlank_of_mem_breakLine)
        ((begins_prettyAt unit (level + 1) hints.1).append _) pos
      rw [← hread] at hnext
      obtain ⟨pos₂, hstep⟩ := items_step read hnext
        (value_prettyAt unit v (level + 1) fuel depth _ pos₁ (ends_moreLines unit level _ _)
          (by omega) (by omega) hwell.1 hints.1)
      simp only [List.cons_append, List.append_assoc]
      rw [hstep]
      simpa using items_prettyItems unit vs level fuel depth (v :: read) rest pos₂ rfl (by omega)
        (by omega) hwell.2 hints.2

/-- The members behind the first one. -/
theorem members_prettyMembers (unit : Nat) : (ms : List (String × Json)) →
    (level fuel depth : Nat) → (read : Entries Json) → (rest : List Char) → (pos : Position) →
    2 * (moreLines unit level (prettyMembers unit (level + 1) ms)).length < fuel →
    depthMembers ms ≤ depth → Entries.Distinct (read ++ ms) → WellFormedMembers ms →
    (∀ x, .float x ∉ numbersMembers ms) →
    Reads (members fuel depth false read ⟨moreLines unit level (prettyMembers unit (level + 1) ms)
      ++ (breakLine unit level ++ '\x7d' :: rest), pos⟩) (read ++ ms) rest
  | [], level, fuel, depth, read, rest, pos, hfuel, _, _, _, _ => by
      rw [List.append_nil]
      exact members_close (fun c => isBlank_of_mem_breakLine) (by omega) depth false read rest pos
  | (k, v) :: ms, level, fuel + 1, depth, read, rest, pos, hfuel, hdepth, hdistinct, hwell,
      hints => by
      rw [depthMembers] at hdepth
      rw [WellFormedMembers] at hwell
      simp only [numbersMembers, List.mem_append, not_or, forall_and] at hints
      rw [prettyMembers] at hfuel ⊢
      have hlength := length_moreLines_cons unit level
        (quote k ++ ':' :: ' ' :: prettyAt unit (level + 1) v) (prettyMembers unit (level + 1) ms)
      rw [List.length_append, List.length_cons, List.length_cons] at hlength
      have hnew : k ∉ Entries.keys read := by
        rw [Entries.Distinct, Entries.keys_append, List.nodup_append] at hdistinct
        intro hmem
        exact hdistinct.2.2 k hmem k (by simp) rfl
      rw [moreLines_cons]
      obtain ⟨pos₁, hnext⟩ := nextKey_comma (fun c => isBlank_of_mem_breakLine) _ pos
      obtain ⟨pos₂, hstep⟩ := members_step read hnext fun pos =>
        value_prettyAt unit v (level + 1) fuel depth _ pos (ends_moreLines unit level _ _)
          (by omega) (by omega) hwell.1 hints.1
      simp only [List.cons_append, List.append_assoc]
      rw [quote_append, hstep, Entries.insert_of_not_mem v hnew]
      simpa using members_prettyMembers unit ms level fuel depth (read ++ [(k, v)]) rest pos₂
        (by omega) (by omega) (by simpa using hdistinct) hwell.2 hints.2

end

end Reader

/-- A value without floats, whose objects name each member once, is read back from its text if it
nests no deeper than the reader follows. -/
theorem parse_prettyText (unit : Nat) {v : Json} (hwell : v.WellFormed)
    (hints : ∀ x, .float x ∉ v.numbers) (hdepth : v.depth ≤ Reader.maxDepth) :
    parse (v.prettyText unit) = .ok v := by
  obtain ⟨pos, hread⟩ := Reader.value_prettyAt unit v 0 (2 * (v.pretty unit).length + 2)
    Reader.maxDepth [] Text.Position.start (by simp [Reader.Ends]) (by simp [pretty]) hdepth hwell
    hints
  rw [List.append_nil] at hread
  rw [parse, Text.Cursor.ofString, prettyText, String.toList_ofList]
  simp only [pretty] at hread ⊢
  rw [hread]
  rfl

end StateFlow.Json
