import StateFlow.Proofs.DefinitionText

/-!
# What the literal pass writes

The pass knows nothing of values: it takes the first opening that is closed on its line and goes on
behind the last closing of that line.  On the text of a value it still does what a writer would do
that leaves out the quotes of wrapped strings (`strip_pretty_eq_unquoted`), as long as no name and
no other string opens a wrapper.

`Passes` says what the pass makes of a piece of text where the line ends behind it.  It is shown for
strings first and then carried through the lines of lists and objects.
-/

namespace StateFlow.Json

mutual

def strings : Json → List String
  | .str text => [text]
  | .arr items => stringsItems items
  | .obj members => stringsMembers members
  | _ => []

def stringsItems : List Json → List String
  | [] => []
  | v :: rest => strings v ++ stringsItems rest

def stringsMembers : List (String × Json) → List String
  | [] => []
  | (_, v) :: rest => strings v ++ stringsMembers rest

end

mutual

def memberNames : Json → List String
  | .arr items => memberNamesItems items
  | .obj members => memberNamesMembers members
  | _ => []

def memberNamesItems : List Json → List String
  | [] => []
  | v :: rest => memberNames v ++ memberNamesItems rest

def memberNamesMembers : List (String × Json) → List String
  | [] => []
  | (k, v) :: rest => k :: memberNames v ++ memberNamesMembers rest

end

mutual

def prettyWith (write : String → List Char) (unit : Nat) : (level : Nat) → Json → List Char
  | level, .arr items => bracketed unit level '[' ']' (prettyItemsWith write unit (level + 1) items)
  | level, .obj members =>
    bracketed unit level '\x7b' '\x7d' (prettyMembersWith write unit (level + 1) members)
  | _, .str text => write text
  | _, v => scalarText v

def prettyItemsWith (write : String → List Char) (unit : Nat) :
    (level : Nat) → List Json → List (List Char)
  | _, [] => []
  | level, v :: rest => prettyWith write unit level v :: prettyItemsWith write unit level rest

def prettyMembersWith (write : String → List Char) (unit : Nat) :
    (level : Nat) → List (String × Json) → List (List Char)
  | _, [] => []
  | level, (k, v) :: rest =>
    (quote k ++ ':' :: ' ' :: prettyWith write unit level v)
      :: prettyMembersWith write unit level rest

end

mutual

/-- With all strings in quotes it is the pretty form. -/
theorem prettyWith_quote (unit level : Nat) : (v : Json) →
    prettyWith quote unit level v = prettyAt unit level v
  | .null | .bool _ | .num _ | .str _ => by simp [prettyWith, prettyAt, scalarText]
  | .arr items => by rw [prettyWith, prettyAt, prettyItemsWith_quote unit (level + 1) items]
  | .obj members => by rw [prettyWith, prettyAt, prettyMembersWith_quote unit (level + 1) members]

theorem prettyItemsWith_quote (unit level : Nat) : (items : List Json) →
    prettyItemsWith quote unit level items = prettyItems unit level items
  | [] => rfl
  | v :: rest => by
      rw [prettyItemsWith, prettyItems, prettyWith_quote unit level v,
        prettyItemsWith_quote unit level rest]

theorem prettyMembersWith_quote (unit level : Nat) : (members : List (String × Json)) →
    prettyMembersWith quote unit level members = prettyMembers unit level members
  | [] => rfl
  | (k, v) :: rest => by
      rw [prettyMembersWith, prettyMembers, prettyWith_quote unit level v,
        prettyMembersWith_quote unit level rest]

end

end StateFlow.Json

namespace StateFlow.Literal

open StateFlow.Json

variable {marker : String}

/-! ## Where the pass goes on -/

theorem strip_cons_of_none {c : Char} {rest : List Char}
    (hnone : wrapped? (opening marker) (c :: rest) = none) :
    strip marker (c :: rest) = c :: strip marker rest := by
  unfold strip
  rw [stripFrom, hnone]

/-- Text in which no wrapper begins stays as it is. -/
theorem strip_append_of_none {text rest : List Char}
    (hnone : ∀ back, back <:+ text → back ≠ [] → wrapped? (opening marker) (back ++ rest) = none) :
    strip marker (text ++ rest) = text ++ strip marker rest := by
  induction text with
  | nil => rfl
  | cons c text ih =>
      have hhead := hnone (c :: text) (List.suffix_refl _) (by simp)
      rw [List.cons_append] at hhead ⊢
      rw [strip_cons_of_none hhead, ih fun back hback => hnone back (hback.trans (by simp)),
        List.cons_append]

theorem wrapped?_unquoted {c : Char} {rest : List Char} (hc : c ≠ '"') :
    wrapped? (opening marker) (c :: rest) = none := by
  cases hwrapped : wrapped? (opening marker) (c :: rest) with
  | none => rfl
  | some inner =>
      obtain ⟨-, after, heq⟩ := wrapped?_eq_some hwrapped
      exact absurd (List.cons.inj heq).1.symm hc

theorem strip_unquoted_append {text : List Char} (htext : '"' ∉ text) (rest : List Char) :
    strip marker (text ++ rest) = text ++ strip marker rest := by
  apply strip_append_of_none
  intro back hback hne
  cases back with
  | nil => exact absurd rfl hne
  | cons c back =>
      apply wrapped?_unquoted
      rintro rfl
      exact htext (hback.subset (by simp))

/-- The text up to a closing behind which no other one stands on the line. -/
theorem inner?_append_closing {inner after : List Char} (hline : '\n' ∉ inner)
    (hafter : ¬ Closes ('"' :: after)) : inner? (inner ++ ')' :: '"' :: after) = some inner := by
  induction inner with
  | nil =>
      have hnone : inner? ('"' :: after) = none := by
        cases hinner : inner? ('"' :: after) with
        | none => rfl
        | some inner => exact absurd ⟨inner, inner?_eq_some hinner⟩ hafter
      rw [List.nil_append, inner?, hnone]
      simp
  | cons c inner ih =>
      simp only [List.mem_cons, not_or] at hline
      rw [List.cons_append, inner?, if_neg (Ne.symm hline.1), ih hline.2]

theorem stripFrom_append (skipped rest : List Char) :
    stripFrom (opening marker) skipped.length (skipped ++ rest) = strip marker rest := by
  induction skipped with
  | nil => rfl
  | cons c skipped ih =>
      rw [List.length_cons, List.cons_append, stripFrom]
      exact ih

/-- A wrapper is replaced by what it holds, and the pass goes on behind it. -/
theorem strip_wrapper_append {inner after : List Char} (hline : '\n' ∉ inner)
    (hafter : ¬ Closes ('"' :: after)) :
    strip marker (wrapper marker inner ++ after) = inner ++ strip marker after := by
  let behind := marker.toList ++ ['('] ++ inner ++ [')', '"']
  have htext : wrapper marker inner ++ after = '"' :: (behind ++ after) := by
    simp [wrapper, opening, behind]
  have hsplit : '"' :: (behind ++ after) = opening marker ++ (inner ++ ')' :: '"' :: after) := by
    simp [opening, behind]
  have hwrapped : wrapped? (opening marker) ('"' :: (behind ++ after)) = some inner := by
    unfold wrapped?
    rw [hsplit, List.drop_left, inner?_append_closing hline hafter, if_pos]
    rw [List.isPrefixOf_iff_prefix]
    exact List.prefix_append _ _
  have hlength : (opening marker).length + inner.length + 1 = behind.length := by
    simp only [opening, behind, List.length_append, List.length_cons, List.length_nil]
    omega
  calc strip marker (wrapper marker inner ++ after)
      = inner ++ stripFrom (opening marker) ((opening marker).length + inner.length + 1)
          (behind ++ after) := by
        rw [htext, strip, stripFrom, hwrapped]
    _ = inner ++ strip marker after := by rw [hlength, stripFrom_append]

/-! ## Strings -/

theorem prefix_of_wrapped? {text inner : List Char}
    (hwrapped : wrapped? (opening marker) ('"' :: text) = some inner) :
    marker.toList ++ ['('] <+: text := by
  obtain ⟨-, after, heq⟩ := wrapped?_eq_some hwrapped
  refine ⟨inner ++ [')', '"'] ++ after, ?_⟩
  simpa [wrapper, opening] using heq

theorem wrapped?_eq_none_of_not_marked {text : List Char}
    (hmarked : ¬ marker.toList ++ ['('] <+: text) :
    wrapped? (opening marker) ('"' :: text) = none := by
  rw [Option.eq_none_iff_forall_ne_some]
  intro inner hwrapped
  exact hmarked (prefix_of_wrapped? hwrapped)

/-- The marker at the beginning of a quoted text stands there in the text itself. -/
theorem prefix_of_prefix_quoted (hplain : Plain marker) {text tail : List Char}
    (hmarked : marker.toList ++ ['('] <+: escape text ++ '"' :: tail) :
    marker.toList ++ ['('] <+: text := by
  have hquote : '"' ∉ marker.toList ++ ['('] := by
    simp [hplain.not_mem (c := '"') (by decide)]
  obtain ⟨rest, heq⟩ := hmarked
  rcases append_eq_append_cons heq with ⟨w, hw, -⟩ | ⟨w, hw, -⟩
  · exact absurd (by simp [hw]) hquote
  · obtain ⟨back, rfl, -⟩ := escape_eq_plain_append hplain.middle hw
    exact List.prefix_append _ _

/-- The text behind the first quote of a string stays as it is if no quote in it opens a wrapper. -/
theorem strip_escape_append (hplain : Plain marker) {text tail : List Char}
    (htext : ¬ opening marker <:+: text) (htail : ¬ marker.toList ++ ['('] <+: tail) :
    strip marker (escape text ++ '"' :: tail) = escape text ++ '"' :: strip marker tail := by
  have hsplit : escape text ++ '"' :: tail = (escape text ++ ['"']) ++ tail := by simp
  rw [hsplit, strip_append_of_none, List.append_assoc, List.singleton_append]
  rintro back ⟨front, heq⟩ hne
  cases back with
  | nil => exact absurd rfl hne
  | cons c back =>
      by_cases hc : c = '"'
      · subst hc
        apply wrapped?_eq_none_of_not_marked
        intro hmarked
        rcases append_eq_append_cons heq.symm with ⟨w, hw, rfl⟩ | ⟨w, -, hw⟩
        · -- A quote inside the text opens it.
          obtain ⟨before, behind, rfl, -, rfl⟩ := escape_eq_append_quote hw
          have hopened : marker.toList ++ ['('] <+: behind := by
            apply prefix_of_prefix_quoted hplain
            simpa using hmarked
          obtain ⟨last, rfl⟩ := hopened
          exact htext ⟨before, last, by simp [opening]⟩
        · -- The quote at the end of the text opens it.
          obtain ⟨-, rfl⟩ : w = [] ∧ back = [] := by
            cases w with
            | nil => simpa using hw
            | cons d w => simp at hw
          exact htail hmarked
      · exact wrapped?_unquoted hc

/-- The line ends here, or behind a comma. -/
def EndsLine (rest : List Char) : Prop :=
  rest = [] ∨ (∃ more, rest = '\n' :: more) ∨ ∃ more, rest = ',' :: '\n' :: more

theorem EndsLine.not_closes {after : List Char} (hafter : EndsLine after) :
    ¬ Closes ('"' :: after) := by
  rintro ⟨inner, hline, rest, heq⟩
  rcases hafter with rfl | ⟨more, rfl⟩ | ⟨more, rfl⟩
  all_goals rcases inner with _ | ⟨a, _ | ⟨b, _ | ⟨c, inner⟩⟩⟩
  all_goals simp_all

theorem EndsLine.not_marked {after : List Char} (hplain : Plain marker) (hafter : EndsLine after) :
    ¬ marker.toList ++ ['('] <+: after := by
  have hline : '\n' ∉ marker.toList := hplain.not_mem (by decide)
  rintro ⟨rest, heq⟩
  rcases hafter with rfl | ⟨more, rfl⟩ | ⟨more, rfl⟩
  all_goals rcases hmarker : marker.toList with _ | ⟨a, _ | ⟨b, marked⟩⟩
  all_goals simp_all

/-- The pass turns one text into another where the line ends behind it. -/
def Passes (marker : String) (text written : List Char) : Prop :=
  ∀ after, EndsLine after → strip marker (text ++ after) = written ++ strip marker after

/-- The text of a string: what is wrapped in it without quotes, or else the string in quotes. -/
def unquoted (marker text : String) : List Char :=
  match Schema.Pattern.wrapped? marker text.toList with
  | some inner => escape inner
  | none => quote text

theorem wrapped?_eq_some_iff {text inner : List Char} :
    Schema.Pattern.wrapped? marker text = some inner ↔
      text = marker.toList ++ '(' :: inner ++ [')'] := by
  unfold Schema.Pattern.wrapped?
  constructor
  · intro hwrapped
    simp only [List.isPrefixOf_iff_prefix] at hwrapped
    split at hwrapped
    · next hmarked =>
        obtain ⟨rest, rfl⟩ := hmarked
        rw [List.drop_left] at hwrapped
        split at hwrapped
        · next hlast =>
            obtain ⟨front, rfl⟩ := List.getLast?_eq_some_iff.mp hlast
            obtain rfl : front = inner := by simpa using hwrapped
            simp
        · cases hwrapped
    · cases hwrapped
  · rintro rfl
    have hsplit : marker.toList ++ '(' :: inner ++ [')'] =
        (marker.toList ++ ['(']) ++ (inner ++ [')']) := by simp
    have hmarked : (marker.toList ++ ['(']).isPrefixOf
        (marker.toList ++ '(' :: inner ++ [')']) = true := by
      rw [List.isPrefixOf_iff_prefix, hsplit]
      exact List.prefix_append _ _
    rw [if_pos hmarked, hsplit, List.drop_left]
    simp

theorem escape_marked (hplain : Plain marker) (text : List Char) :
    escape (marker.toList ++ ['('] ++ text) = marker.toList ++ ['('] ++ escape text := by
  rw [escape_append, escape_plain hplain.middle]

/-- A string that is not wrapped does not begin a wrapper, although the marker may be opened. -/
theorem wrapped?_quoted_eq_none (hplain : Plain marker) {text after : List Char}
    (hafter : EndsLine after) (htext : Schema.Pattern.wrapped? marker text = none) :
    wrapped? (opening marker) ('"' :: (escape text ++ '"' :: after)) = none := by
  cases hwrapped : wrapped? (opening marker) ('"' :: (escape text ++ '"' :: after)) with
  | none => rfl
  | some inner =>
      obtain ⟨hline, rest, heq⟩ := wrapped?_eq_some hwrapped
      have hbehind : marker.toList ++ '(' :: (inner ++ [')', '"'] ++ rest) =
          escape text ++ '"' :: after := by
        simpa [wrapper, opening] using heq
      obtain ⟨back, rfl⟩ := prefix_of_prefix_quoted hplain (prefix_of_wrapped? hwrapped)
      have hcloses : Closes (escape back ++ '"' :: after) := by
        refine ⟨inner, hline, rest, ?_⟩
        rw [escape_marked hplain] at hbehind
        simpa using hbehind
      obtain ⟨front, rfl⟩ := List.getLast?_eq_some_iff.mp
        ((closes_quoted hafter.not_closes).mp hcloses)
      have hsome : Schema.Pattern.wrapped? marker
          (marker.toList ++ ['('] ++ (front ++ [')'])) = some front :=
        wrapped?_eq_some_iff.mpr (by simp)
      rw [hsome] at htext
      cases htext

/-- A string that is wrapped stands in quotes as a wrapper of its escaped text. -/
theorem quote_eq_wrapper (hplain : Plain marker) {text : String} {inner : List Char}
    (htext : text.toList = marker.toList ++ '(' :: inner ++ [')']) :
    quote text = wrapper marker (escape inner) := by
  have hsplit : text.toList = marker.toList ++ ['('] ++ (inner ++ [')']) := by simpa using htext
  rw [quote, hsplit, escape_marked hplain, escape_append]
  simp [wrapper, opening, escape, escapeChar]

/-- A string in quotes comes out unquoted if it is wrapped, and as it is if no quote in it opens a
wrapper. -/
theorem passes_quote (hplain : Plain marker) {text : String}
    (htext : (∃ inner, text.toList = marker.toList ++ '(' :: inner ++ [')']) ∨
      ¬ opening marker <:+: text.toList) :
    Passes marker (quote text) (unquoted marker text) := by
  intro after hafter
  unfold unquoted
  cases hwrapped : Schema.Pattern.wrapped? marker text.toList with
  | some inner =>
      rw [quote_eq_wrapper hplain (wrapped?_eq_some_iff.mp hwrapped)]
      exact strip_wrapper_append (newline_not_mem_escape inner) hafter.not_closes
  | none =>
      have hopens : ¬ opening marker <:+: text.toList := by
        rcases htext with ⟨inner, hinner⟩ | hopens
        · rw [wrapped?_eq_some_iff.mpr hinner] at hwrapped
          cases hwrapped
        · exact hopens
      have hsplit : quote text ++ after = '"' :: (escape text.toList ++ '"' :: after) := by
        simp [quote]
      rw [hsplit, strip_cons_of_none (wrapped?_quoted_eq_none hplain hafter hwrapped),
        strip_escape_append hplain hopens (hafter.not_marked hplain)]
      simp [quote]

/-! ## Lines -/

theorem passes_unquoted {text : List Char} (htext : '"' ∉ text) : Passes marker text text :=
  fun after _ => strip_unquoted_append htext after

/-- The name of a member stays as it is if it opens no wrapper. -/
theorem strip_name_append (hplain : Plain marker) (hcolon : ':' ∉ marker.toList) {name : String}
    (hname : ¬ Opens marker name.toList) (rest : List Char) :
    strip marker (quote name ++ ':' :: ' ' :: rest) =
      quote name ++ ':' :: ' ' :: strip marker rest := by
  let behind := ':' :: ' ' :: rest
  have hhead : wrapped? (opening marker) ('"' :: (escape name.toList ++ '"' :: behind)) = none := by
    apply wrapped?_eq_none_of_not_marked
    intro hmarked
    obtain ⟨back, heq⟩ := prefix_of_prefix_quoted hplain hmarked
    exact hname ⟨[], back, by simp [← heq, opening]⟩
  have hinside : ¬ opening marker <:+: name.toList :=
    fun hopened => hname (hopened.trans (List.suffix_cons _ _).isInfix)
  have hbehind : ¬ marker.toList ++ ['('] <+: behind := by
    rintro ⟨rest, heq⟩
    cases hmarker : marker.toList with
    | nil => simp [hmarker, behind] at heq
    | cons c marked => simp_all [behind]
  calc strip marker (quote name ++ behind)
      = strip marker ('"' :: (escape name.toList ++ '"' :: behind)) := by
        simp [quote]
    _ = '"' :: (escape name.toList ++ '"' :: strip marker behind) := by
        rw [strip_cons_of_none hhead, strip_escape_append hplain hinside hbehind]
    _ = '"' :: (escape name.toList ++ '"' :: ':' :: ' ' :: strip marker rest) := by
        have hpunctuation : strip marker ([':', ' '] ++ rest) = [':', ' '] ++ strip marker rest :=
          strip_unquoted_append (by decide) _
        simpa using hpunctuation
    _ = quote name ++ ':' :: ' ' :: strip marker rest := by
        simp [quote]

theorem passes_member (hplain : Plain marker) (hcolon : ':' ∉ marker.toList) {name : String}
    {text written : List Char} (hname : ¬ Opens marker name.toList)
    (htext : Passes marker text written) :
    Passes marker (quote name ++ ':' :: ' ' :: text) (quote name ++ ':' :: ' ' :: written) := by
  intro after hafter
  have hstrip := strip_name_append hplain hcolon hname (text ++ after)
  rw [htext after hafter] at hstrip
  simpa using hstrip

theorem quote_not_mem_breakLine (unit level : Nat) : '"' ∉ breakLine unit level := by
  simp [breakLine, List.mem_replicate]

theorem passes_joinWith (unit level : Nat) {lines written : List (List Char)}
    (hlines : List.Forall₂ (Passes marker) lines written) :
    Passes marker (joinWith (',' :: breakLine unit level) lines)
      (joinWith (',' :: breakLine unit level) written) := by
  let separator := ',' :: breakLine unit level
  have hseparator : '"' ∉ separator := by simp [separator, quote_not_mem_breakLine]
  have hjoin : ∀ a b rest, joinWith separator (a :: b :: rest) =
      a ++ (separator ++ joinWith separator (b :: rest)) := by simp [joinWith]
  induction hlines with
  | nil => exact passes_unquoted (by simp [joinWith])
  | @cons line text lines texts hline hlines ih =>
      cases hlines with
      | nil => exact hline
      | @cons next follower lines texts =>
          intro after hafter
          let rest := joinWith separator (next :: lines) ++ after
          have hends : EndsLine (separator ++ rest) := Or.inr (Or.inr ⟨_, rfl⟩)
          calc strip marker (joinWith separator (line :: next :: lines) ++ after)
              = strip marker (line ++ (separator ++ rest)) := by simp [hjoin, rest]
            _ = text ++ (separator ++ strip marker rest) := by
                rw [hline _ hends, strip_unquoted_append hseparator]
            _ = text ++ (separator ++
                  (joinWith separator (follower :: texts) ++ strip marker after)) := by
                rw [ih after hafter]
            _ = joinWith separator (text :: follower :: texts) ++ strip marker after := by
                simp [hjoin]

/-- A container comes out with its own brackets around the lines that come out. -/
theorem passes_bracketed (unit level : Nat) {first last : Char} (hfirst : first ≠ '"')
    (hlast : last ≠ '"') {lines written : List (List Char)}
    (hlines : List.Forall₂ (Passes marker) lines written) :
    Passes marker (bracketed unit level first last lines)
      (bracketed unit level first last written) := by
  let front := first :: breakLine unit (level + 1)
  let back := breakLine unit level ++ [last]
  have hfront : '"' ∉ front := by simp [front, quote_not_mem_breakLine, Ne.symm hfirst]
  have hback : '"' ∉ back := by simp [back, quote_not_mem_breakLine, Ne.symm hlast]
  have hjoined := passes_joinWith unit (level + 1) hlines
  cases hlines with
  | nil => exact passes_unquoted (by simp [bracketed, Ne.symm hfirst, Ne.symm hlast])
  | @cons line text lines texts =>
      intro after hafter
      let join := joinWith (',' :: breakLine unit (level + 1))
      have hends : EndsLine (back ++ after) := Or.inr (Or.inl ⟨_, rfl⟩)
      calc strip marker (bracketed unit level first last (line :: lines) ++ after)
          = strip marker (front ++ (join (line :: lines) ++ (back ++ after))) := by
            simp [bracketed, join, front, back]
        _ = front ++ (join (text :: texts) ++ (back ++ strip marker after)) := by
            rw [strip_unquoted_append hfront, hjoined _ hends, strip_unquoted_append hback]
        _ = bracketed unit level first last (text :: texts) ++ strip marker after := by
            simp [bracketed, join, front, back]

mutual

/-- The pass over a value does to each string what it does to the string alone. -/
theorem passes_prettyWith (hplain : Plain marker) (hcolon : ':' ∉ marker.toList)
    {write written : String → List Char}
    (unit level : Nat) : (v : Json) → (∀ name ∈ v.memberNames, ¬ Opens marker name.toList) →
    (∀ text ∈ v.strings, Passes marker (write text) (written text)) →
    Passes marker (prettyWith write unit level v) (prettyWith written unit level v)
  | .null, _, _ => passes_unquoted (by simp [prettyWith, scalarText])
  | .bool true, _, _ | .bool false, _, _ => passes_unquoted (by simp [prettyWith, scalarText])
  | .num n, _, _ => passes_unquoted (not_mem_number (by decide) (by decide) n)
  | .str text, _, hstrings => hstrings text (by simp [strings])
  | .arr items, hnames, hstrings => by
      rw [prettyWith, prettyWith]
      apply passes_bracketed unit level (by decide) (by decide)
      exact passes_prettyItemsWith hplain hcolon unit (level + 1) items hnames hstrings
  | .obj members, hnames, hstrings => by
      rw [prettyWith, prettyWith]
      apply passes_bracketed unit level (by decide) (by decide)
      exact passes_prettyMembersWith hplain hcolon unit (level + 1) members hnames hstrings

theorem passes_prettyItemsWith (hplain : Plain marker) (hcolon : ':' ∉ marker.toList)
    {write written : String → List Char}
    (unit level : Nat) : (items : List Json) →
    (∀ name ∈ memberNamesItems items, ¬ Opens marker name.toList) →
    (∀ text ∈ stringsItems items, Passes marker (write text) (written text)) →
    List.Forall₂ (Passes marker) (prettyItemsWith write unit level items)
      (prettyItemsWith written unit level items)
  | [], _, _ => List.Forall₂.nil
  | v :: rest, hnames, hstrings => by
      rw [memberNamesItems, List.forall_mem_append] at hnames
      rw [stringsItems, List.forall_mem_append] at hstrings
      rw [prettyItemsWith, prettyItemsWith]
      exact .cons (passes_prettyWith hplain hcolon unit level v hnames.1 hstrings.1)
        (passes_prettyItemsWith hplain hcolon unit level rest hnames.2 hstrings.2)

theorem passes_prettyMembersWith (hplain : Plain marker) (hcolon : ':' ∉ marker.toList)
    {write written : String → List Char}
    (unit level : Nat) : (members : List (String × Json)) →
    (∀ name ∈ memberNamesMembers members, ¬ Opens marker name.toList) →
    (∀ text ∈ stringsMembers members, Passes marker (write text) (written text)) →
    List.Forall₂ (Passes marker) (prettyMembersWith write unit level members)
      (prettyMembersWith written unit level members)
  | [], _, _ => List.Forall₂.nil
  | (name, v) :: rest, hnames, hstrings => by
      rw [memberNamesMembers, List.forall_mem_append, List.forall_mem_cons] at hnames
      rw [stringsMembers, List.forall_mem_append] at hstrings
      rw [prettyMembersWith, prettyMembersWith]
      exact .cons
        (passes_member hplain hcolon hnames.1.1
          (passes_prettyWith hplain hcolon unit level v hnames.1.2 hstrings.1))
        (passes_prettyMembersWith hplain hcolon unit level rest hnames.2 hstrings.2)

end

/-! ## Values -/

/-- The pass over the text of a value takes wrapped strings out of their quotes and leaves the rest
as it is, if no name of a member and no quote in another string opens a wrapper. -/
theorem strip_pretty_eq_unquoted (v : Json)
    (hnames : ∀ name ∈ v.memberNames, ¬ Opens Settings.production.literalMarker name.toList)
    (hstrings : ∀ text ∈ v.strings,
      (∃ inner, text.toList = Settings.production.literalMarker.toList ++ '(' :: inner ++ [')']) ∨
        ¬ opening Settings.production.literalMarker <:+: text.toList) :
    strip Settings.production.literalMarker (v.pretty 4) =
      v.prettyWith (unquoted Settings.production.literalMarker) 4 0 := by
  have hcolon : ':' ∉ Settings.production.literalMarker.toList := by decide +kernel
  have hpasses := passes_prettyWith production_plain hcolon 4 0 v hnames
    fun text htext => passes_quote production_plain (hstrings text htext)
  have hstrip := hpasses [] (Or.inl rfl)
  rw [prettyWith_quote, List.append_nil] at hstrip
  rw [pretty, hstrip]
  exact List.append_nil _

def wrappedValues : Json := .obj
  [("Seconds", .str "apb_render_nonstring_value($\x7bDelay\x7d)"),
    ("a \"b\")", .arr
      [.str "apb_render_nonstring_value([\"apb_render_nonstring_value(1)\",\n(2)])",
        .str "apb_render_nonstring_value(open", .str "closed)"]),
    ("Limit", .str "apb_render_nonstring_value()")]

theorem strip_pretty_eq_unquoted_wrappedValues :
    (∀ name ∈ wrappedValues.memberNames,
      ¬ Opens Settings.production.literalMarker name.toList) ∧
    (∀ text ∈ wrappedValues.strings,
      (∃ inner, text.toList = Settings.production.literalMarker.toList ++ '(' :: inner ++ [')']) ∨
        ¬ opening Settings.production.literalMarker <:+: text.toList) ∧
    strip Settings.production.literalMarker (wrappedValues.pretty 4) =
      ("\x7b\n    \"Seconds\": $\x7bDelay\x7d,\n    \"a \\\"b\\\")\": [\n"
        ++ "        [\\\"apb_render_nonstring_value(1)\\\",\\n(2)],\n"
        ++ "        \"apb_render_nonstring_value(open\",\n        \"closed)\"\n    ],\n"
        ++ "    \"Limit\": \n\x7d").toList := by
  have hnames : ∀ name ∈ wrappedValues.memberNames,
      ¬ opening Settings.production.literalMarker <:+: '"' :: name.toList := by decide +kernel
  have hstrings : ∀ text ∈ wrappedValues.strings,
      (∃ inner, text.toList = Settings.production.literalMarker.toList ++ '(' :: inner ++ [')']) ∨
        ¬ opening Settings.production.literalMarker <:+: text.toList := by
    have hall : ∀ text ∈ wrappedValues.strings,
        (Schema.Pattern.wrapped? Settings.production.literalMarker text.toList).isSome ∨
          ¬ opening Settings.production.literalMarker <:+: text.toList := by decide +kernel
    intro text htext
    refine (hall text htext).imp_left fun hsome => ?_
    obtain ⟨inner, hinner⟩ := Option.isSome_iff_exists.mp hsome
    exact ⟨inner, wrapped?_eq_some_iff.mp hinner⟩
  refine ⟨hnames, hstrings, ?_⟩
  rw [strip_pretty_eq_unquoted wrappedValues hnames hstrings]
  decide +kernel

end StateFlow.Literal
