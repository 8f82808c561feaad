import LetLang.Proofs.Json.Strings
import LetLang.Proofs.Scan.Spelling
import LetLang.Proofs.Text.Lines

/-
  The indented text of a value tells the value.

  The first character of a value tells its form. A text and
  a numeral end where they have to; an array and an object
  end with the first line that is indented like their own
  first line, for the lines of their parts are indented
  deeper. So the lines of a value can be told from what
  follows them, and it is enough that no line holds a line
  feed.

  Key definitions include:
    * `Json.Form`
    * `Json.opening`
    * `Json.body`
    * `Json.Outside`

  Main declarations:
    * `Json.lines_append_inj`
    * `Json.not_mem_lines`
    * `Json.pretty_inj`
-/

namespace LetLang

namespace Json

------------------------------------------------------------
-- Numerals
------------------------------------------------------------

theorem isDigit_of_mem_repr
    {n : Nat}
    {c : Char}
    (hMem : c ∈ (toString n).toList) :
    Text.isDigit c = true := by
  have hList : (toString n).toList = Nat.toDigits 10 n :=
    Nat.toList_repr
  rw [hList] at hMem
  exact Nat.isDigit_of_mem_toDigits (by decide) (by decide) hMem

theorem repr_inj
    {a b : Nat}
    (h : (toString a).toList = (toString b).toList) :
    a = b := by
  have hDigits : Nat.toDigits 10 a = Nat.toDigits 10 b := by
    rw [← Nat.toList_repr, ← Nat.toList_repr]
    exact h
  have hRead (n : Nat) :
      Nat.ofDigitChars 10 (Nat.toDigits 10 n) 0 = n :=
    Nat.ofDigitChars_toDigits (by decide) (by decide)
  rw [← hRead a, hDigits, hRead b]

/- A numeral can be told from what follows it but digits. -/
theorem repr_append_inj
    {a b : Nat}
    {text other : String}
    (hText : ∀ c ∈ text.toList.head?, Text.isDigit c = false)
    (hOther :
      ∀ c ∈ other.toList.head?, Text.isDigit c = false)
    (h : toString a ++ text = toString b ++ other) :
    a = b ∧ text = other := by
  have hList := congrArg String.toList h
  rw [String.toList_append, String.toList_append] at hList
  rcases Scan.takeWhile_append_of_head?
      (fun c hMem => isDigit_of_mem_repr (n := a) hMem) hText
    with ⟨hRun, hRest⟩
  rcases Scan.takeWhile_append_of_head?
      (fun c hMem => isDigit_of_mem_repr (n := b) hMem) hOther
    with ⟨hRun', hRest'⟩
  rw [hList] at hRun hRest
  have hNumeral := repr_inj (hRun.symm.trans hRun')
  subst hNumeral
  exact ⟨rfl, String.append_right_inj (toString a) |>.mp h⟩

------------------------------------------------------------
-- Forms
------------------------------------------------------------

/- What the first character of a value tells about it. -/
inductive Form where
  | text
  | number
  | constant (value : Bool)
  | array
  | object
  deriving DecidableEq

/- The form of a value. -/
def form : Json → Form
  | .str _ => .text
  | .num _ => .number
  | .bool value => .constant value
  | .arr _ => .array
  | .obj _ => .object

/- The form that a first character tells. -/
def Form.ofChar
    (c : Char) : Form :=
  if Text.isDigit c then .number
  else if c = 't' then .constant true
  else if c = 'f' then .constant false
  else if c = '[' then .array
  else if c = '\x7b' then .object
  else .text

/-
  What stands on the first line of a value with brackets.
  Without parts in it both brackets do.
-/
def bracket {α : Type}
    (left right trail : String) : List α → String
  | [] => left ++ right ++ trail
  | _ :: _ => left

/-
  The other lines of such a value: the lines of its parts,
  and the right bracket.
-/
def bracketed {α : Type}
    (depth : Nat)
    (right trail : String)
    (inner : List String) : List α → List String
  | [] => []
  | _ :: _ => inner ++ [line depth (right ++ trail)]

/- What stands on the first line of a value. -/
def opening
    (trail : String) : Json → String
  | .str text => string text ++ trail
  | .num value => toString value ++ trail
  | .bool true => "true" ++ trail
  | .bool false => "false" ++ trail
  | .arr items => bracket "[" "]" trail items
  | .obj fields => bracket "\x7b" "\x7d" trail fields

/- The other lines of a value. -/
def body
    (depth : Nat)
    (trail : String) : Json → List String
  | .arr items =>
      bracketed depth "]" trail (itemLines (depth + 1) items)
        items
  | .obj fields =>
      bracketed depth "\x7d" trail
        (fieldLines (depth + 1) fields) fields
  | _ => []

/- A value is written on its first line and the others. -/
theorem lines_eq
    (depth : Nat)
    (lead trail : String)
    (value : Json) :
    lines depth lead trail value =
      line depth (lead ++ opening trail value)
        :: body depth trail value := by
  cases value with
  | str text => simp [lines, opening, body, String.append_assoc]
  | num value =>
      simp [lines, opening, body, String.append_assoc]
  | bool value =>
      cases value <;>
        simp [lines, opening, body, String.append_assoc]
  | arr items =>
      cases items <;>
        simp [lines, opening, body, bracket, bracketed,
          String.append_assoc]
  | obj fields =>
      cases fields <;>
        simp [lines, opening, body, bracket, bracketed,
          String.append_assoc]

/- The first character of a value tells its form. -/
theorem form_opening
    (trail : String)
    (value : Json) :
    (opening trail value).toList.head?.map Form.ofChar =
      some value.form := by
  cases value with
  | str text =>
      simp [opening, string, form, Form.ofChar, Text.isDigit]
  | num value =>
      have hDigits := @isDigit_of_mem_repr value
      have hSome : (toString value).toList ≠ [] := by
        rw [Nat.toString_eq_repr, Nat.toList_repr]
        exact Nat.toDigits_ne_nil
      rcases List.exists_cons_of_ne_nil hSome with
        ⟨c, rest, hList⟩
      have hDigit : Text.isDigit c = true := by
        apply hDigits
        rw [hList]
        exact List.mem_cons_self ..
      unfold opening
      rw [String.toList_append, hList]
      simp [form, Form.ofChar, hDigit]
  | bool value =>
      cases value <;>
        simp [opening, form, Form.ofChar, Text.isDigit]
  | arr items =>
      cases items <;>
        simp [opening, bracket, form, Form.ofChar,
          Text.isDigit]
  | obj fields =>
      cases fields <;>
        simp [opening, bracket, form, Form.ofChar,
          Text.isDigit]

/- So values with the same opening have the same form. -/
theorem form_eq_of_opening_eq
    {a b : Json}
    {trail other : String}
    (h : opening trail a = opening other b) :
    a.form = b.form := by
  have hForm := form_opening trail a
  rw [h, form_opening other b] at hForm
  exact (Option.some.inj hForm).symm

------------------------------------------------------------
-- Indentation
------------------------------------------------------------

theorem line_inj
    {depth : Nat}
    {text other : String}
    (h : line depth text = line depth other) :
    text = other := by
  unfold line at h
  exact (String.append_right_inj _).mp h

/-
  The first of some lines is not indented as deep as a given
  depth.
-/
def Outside
    (depth : Nat)
    (rest : List String) : Prop :=
  ∀ text, rest.head? ≠ some (line depth text)

/- A line that begins without a blank is outside. -/
theorem outside_cons
    {c : Char}
    (hBlank : c ≠ ' ')
    (depth : Nat)
    (text : String)
    (rest : List String) :
    Outside (depth + 1)
      (line depth (String.ofList [c] ++ text) :: rest) := by
  intro other h
  have hLine := congrArg String.toList (Option.some.inj h)
  unfold line at hLine
  simp only [String.toList_append, String.toList_ofList]
    at hLine
  rw [Nat.mul_succ, ← List.replicate_append_replicate,
    List.append_assoc] at hLine
  have hRest := List.append_cancel_left hLine
  exact hBlank (List.cons.inj hRest).1

/-
  A value with brackets can be told from what follows it if
  the lines of its parts can be told from what is outside of
  them. For the right bracket is outside.
-/
theorem bracketed_append_inj {α : Type}
    {parts parts' : List α}
    {inner inner' rest others : List String}
    {depth : Nat}
    {left trail other : String}
    {c : Char}
    (hBlank : c ≠ ' ')
    (hInner :
      ∀ {rest others},
        Outside (depth + 1) rest →
          Outside (depth + 1) others →
            inner ++ rest = inner' ++ others →
              parts = parts' ∧ rest = others)
    (hOpening :
      bracket left (String.ofList [c]) trail parts =
        bracket left (String.ofList [c]) other parts')
    (hBody :
      bracketed depth (String.ofList [c]) trail inner parts
          ++ rest =
        bracketed depth (String.ofList [c]) other inner'
            parts' ++ others) :
    parts = parts' ∧ trail = other ∧ rest = others := by
  cases parts with
  | nil =>
      cases parts' with
      | nil =>
          exact
            ⟨rfl, (String.append_right_inj _).mp hOpening,
              hBody⟩
      | cons part' parts' =>
          simp [bracket, ← String.toList_inj] at hOpening
  | cons part parts =>
      cases parts' with
      | nil => simp [bracket, ← String.toList_inj] at hOpening
      | cons part' parts' =>
          rw [bracketed, bracketed, List.append_assoc,
            List.append_assoc] at hBody
          rcases
            hInner (outside_cons hBlank depth trail rest)
              (outside_cons hBlank depth other others) hBody
            with ⟨hParts, hEnds⟩
          rcases List.cons.inj hEnds with ⟨hLast, hEnd⟩
          exact
            ⟨hParts,
              (String.append_right_inj _).mp
                (line_inj hLast),
              hEnd⟩

------------------------------------------------------------
-- Values
------------------------------------------------------------

/- What stands behind a value is no digit. -/
def Trails
    (trail : String) : Prop :=
  ∀ c ∈ trail.toList.head?, Text.isDigit c = false

/- What closes a line is no digit. -/
theorem trails_separator
    {α : Type}
    (after : List α) :
    Trails (separator after) := by
  unfold separator Trails
  split
  · simp
  · simp [Text.isDigit]

theorem not_outside_itemLines
    {depth : Nat}
    {item : Json}
    {items : List Json}
    {rest : List String}
    (h :
      Outside depth
        (itemLines depth (item :: items) ++ rest)) :
    False := by
  rw [itemLines, lines_eq] at h
  exact h _ rfl

theorem not_outside_fieldLines
    {depth : Nat}
    {field : String × Json}
    {fields : List (String × Json)}
    {rest : List String}
    (h :
      Outside depth
        (fieldLines depth (field :: fields) ++ rest)) :
    False := by
  rw [fieldLines, namedLines, lines_eq] at h
  exact h _ rfl

mutual

/-
  The lines of a value can be told from what follows them.
  The induction is on the value; the forms of both are the
  same.
-/
theorem lines_append_inj
    (a : Json)
    {b : Json}
    {depth : Nat}
    {lead trail other : String}
    {rest others : List String}
    (hTrail : Trails trail)
    (hOther : Trails other)
    (h :
      lines depth lead trail a ++ rest =
        lines depth lead other b ++ others) :
    a = b ∧ trail = other ∧ rest = others := by
  rw [lines_eq, lines_eq, List.cons_append,
    List.cons_append] at h
  rcases List.cons.inj h with ⟨hFirst, hRest⟩
  have hOpening : opening trail a = opening other b :=
    (String.append_right_inj lead).mp (line_inj hFirst)
  have hForm := form_eq_of_opening_eq hOpening
  cases a with
  | str text =>
      cases b with
      | str text' =>
          rcases string_append_inj hOpening with ⟨rfl, hEnd⟩
          exact ⟨rfl, hEnd, hRest⟩
      | _ => cases hForm
  | num value =>
      cases b with
      | num value' =>
          rcases repr_append_inj hTrail hOther hOpening with
            ⟨rfl, hEnd⟩
          exact ⟨rfl, hEnd, hRest⟩
      | _ => cases hForm
  | bool value =>
      cases b with
      | bool value' =>
          cases hForm
          cases value with
          | true =>
              exact
                ⟨rfl, (String.append_right_inj _).mp hOpening,
                  hRest⟩
          | false =>
              exact
                ⟨rfl, (String.append_right_inj _).mp hOpening,
                  hRest⟩
      | _ => cases hForm
  | arr items =>
      cases b with
      | arr items' =>
          rcases
            bracketed_append_inj (by decide)
              (itemLines_append_inj items) hOpening hRest
            with ⟨rfl, hEnd⟩
          exact ⟨rfl, hEnd⟩
      | _ => cases hForm
  | obj fields =>
      cases b with
      | obj fields' =>
          rcases
            bracketed_append_inj (by decide)
              (fieldLines_append_inj fields) hOpening hRest
            with ⟨rfl, hEnd⟩
          exact ⟨rfl, hEnd⟩
      | _ => cases hForm
termination_by structural a

/- The lines of items end where something else begins. -/
theorem itemLines_append_inj
    (items : List Json)
    {items' : List Json}
    {depth : Nat}
    {rest others : List String}
    (hRest : Outside depth rest)
    (hOthers : Outside depth others)
    (h :
      itemLines depth items ++ rest =
        itemLines depth items' ++ others) :
    items = items' ∧ rest = others := by
  cases items with
  | nil =>
      cases items' with
      | nil => exact ⟨rfl, h⟩
      | cons item' items' =>
          have h : rest = _ := h
          rw [h] at hRest
          exact (not_outside_itemLines hRest).elim
  | cons item items =>
      cases items' with
      | nil =>
          have h : _ = others := h
          rw [← h] at hOthers
          exact (not_outside_itemLines hOthers).elim
      | cons item' items' =>
          rw [itemLines, itemLines, List.append_assoc,
            List.append_assoc] at h
          rcases
            lines_append_inj item (trails_separator items)
              (trails_separator items') h with
            ⟨rfl, -, hLater⟩
          rcases
            itemLines_append_inj items hRest hOthers hLater
            with ⟨rfl, hEnd⟩
          exact ⟨rfl, hEnd⟩
termination_by structural items

/- And so do the lines of fields. -/
theorem fieldLines_append_inj
    (fields : List (String × Json))
    {fields' : List (String × Json)}
    {depth : Nat}
    {rest others : List String}
    (hRest : Outside depth rest)
    (hOthers : Outside depth others)
    (h :
      fieldLines depth fields ++ rest =
        fieldLines depth fields' ++ others) :
    fields = fields' ∧ rest = others := by
  cases fields with
  | nil =>
      cases fields' with
      | nil => exact ⟨rfl, h⟩
      | cons field' fields' =>
          have h : rest = _ := h
          rw [h] at hRest
          exact (not_outside_fieldLines hRest).elim
  | cons field fields =>
      cases fields' with
      | nil =>
          have h : _ = others := h
          rw [← h] at hOthers
          exact (not_outside_fieldLines hOthers).elim
      | cons field' fields' =>
          rw [fieldLines, fieldLines, List.append_assoc,
            List.append_assoc] at h
          rcases
            namedLines_append_inj field
              (trails_separator fields)
              (trails_separator fields') h with
            ⟨rfl, hLater⟩
          rcases
            fieldLines_append_inj fields hRest hOthers hLater
            with ⟨rfl, hEnd⟩
          exact ⟨rfl, hEnd⟩
termination_by structural fields

/- The lines of a field tell its name and its value. -/
theorem namedLines_append_inj
    (field : String × Json)
    {field' : String × Json}
    {depth : Nat}
    {trail other : String}
    {rest others : List String}
    (hTrail : Trails trail)
    (hOther : Trails other)
    (h :
      namedLines depth trail field ++ rest =
        namedLines depth other field' ++ others) :
    field = field' ∧ rest = others := by
  rcases field with ⟨name, value⟩
  rcases field' with ⟨name', value'⟩
  have hFirst := congrArg List.head? h
  rw [namedLines, namedLines, lines_eq, lines_eq] at hFirst
  have hLine := line_inj (Option.some.inj hFirst)
  rw [String.append_assoc, String.append_assoc] at hLine
  rcases string_append_inj hLine with ⟨rfl, -⟩
  rcases lines_append_inj value hTrail hOther h with
    ⟨rfl, -, hEnd⟩
  exact ⟨rfl, hEnd⟩
termination_by structural field

end

------------------------------------------------------------
-- Line Feeds
------------------------------------------------------------

theorem not_mem_line
    {depth : Nat}
    {text : String}
    (hText : '\n' ∉ text.toList) :
    '\n' ∉ (line depth text).toList := by
  unfold line
  simp [hText]

/- The first line of a value holds none. -/
theorem not_mem_opening
    {trail : String}
    (hTrail : '\n' ∉ trail.toList)
    (value : Json) :
    '\n' ∉ (opening trail value).toList := by
  cases value with
  | str text =>
      simp [opening, hTrail, not_mem_string text]
  | num value =>
      have hDigits : '\n' ∉ (toString value).toList := by
        intro hMem
        exact absurd (isDigit_of_mem_repr hMem) (by decide)
      unfold opening
      rw [String.toList_append, List.mem_append]
      exact not_or.mpr ⟨hDigits, hTrail⟩
  | bool value => cases value <;> simp [opening, hTrail]
  | arr items =>
      cases items <;> simp [opening, bracket, hTrail]
  | obj fields =>
      cases fields <;> simp [opening, bracket, hTrail]

theorem not_mem_bracketed {α : Type}
    {parts : List α}
    {inner : List String}
    {depth : Nat}
    {right trail text : String}
    (hInner : text ∈ inner → '\n' ∉ text.toList)
    (hRight : '\n' ∉ right.toList)
    (hTrail : '\n' ∉ trail.toList)
    (hMem : text ∈ bracketed depth right trail inner parts) :
    '\n' ∉ text.toList := by
  cases parts with
  | nil => cases hMem
  | cons part parts =>
      rcases List.mem_append.mp hMem with hMem | hMem
      · exact hInner hMem
      · rw [List.mem_singleton.mp hMem]
        apply not_mem_line
        simp [hRight, hTrail]

theorem not_mem_separator
    {α : Type}
    (after : List α) :
    '\n' ∉ (separator after).toList := by
  unfold separator
  split
  · simp
  · simp

mutual

/- No line of a value holds a line feed. -/
theorem not_mem_lines
    (value : Json)
    {depth : Nat}
    {lead trail text : String}
    (hLead : '\n' ∉ lead.toList)
    (hTrail : '\n' ∉ trail.toList)
    (hMem : text ∈ lines depth lead trail value) :
    '\n' ∉ text.toList := by
  have hFirst :
      '\n' ∉
        (line depth (lead ++ opening trail value)).toList := by
    apply not_mem_line
    simp [hLead, not_mem_opening hTrail value]
  rw [lines_eq, List.mem_cons] at hMem
  rcases hMem with rfl | hMem
  · exact hFirst
  · cases value with
    | arr items =>
        exact
          not_mem_bracketed (not_mem_itemLines items)
            (by decide) hTrail hMem
    | obj fields =>
        exact
          not_mem_bracketed (not_mem_fieldLines fields)
            (by decide) hTrail hMem
    | _ => cases hMem
termination_by structural value

/- Nor does one of the lines of items. -/
theorem not_mem_itemLines
    (items : List Json)
    {depth : Nat}
    {text : String}
    (hMem : text ∈ itemLines depth items) :
    '\n' ∉ text.toList := by
  cases items with
  | nil => cases hMem
  | cons item items =>
      rw [itemLines, List.mem_append] at hMem
      rcases hMem with hMem | hMem
      · exact
          not_mem_lines item (by simp)
            (not_mem_separator items) hMem
      · exact not_mem_itemLines items hMem
termination_by structural items

/- Nor one of the lines of fields. -/
theorem not_mem_fieldLines
    (fields : List (String × Json))
    {depth : Nat}
    {text : String}
    (hMem : text ∈ fieldLines depth fields) :
    '\n' ∉ text.toList := by
  cases fields with
  | nil => cases hMem
  | cons field fields =>
      rw [fieldLines, List.mem_append] at hMem
      rcases hMem with hMem | hMem
      · exact
          not_mem_namedLines field
            (not_mem_separator fields) hMem
      · exact not_mem_fieldLines fields hMem
termination_by structural fields

theorem not_mem_namedLines
    (field : String × Json)
    {depth : Nat}
    {trail text : String}
    (hTrail : '\n' ∉ trail.toList)
    (hMem : text ∈ namedLines depth trail field) :
    '\n' ∉ text.toList := by
  rcases field with ⟨name, value⟩
  apply not_mem_lines value _ hTrail hMem
  simp [not_mem_string name]
termination_by structural field

end

------------------------------------------------------------
-- Texts
------------------------------------------------------------

/- A value is known from its indented text. -/
theorem pretty_inj
    {a b : Json}
    (h : a.pretty = b.pretty) :
    a = b := by
  have hNone : '\n' ∉ "".toList := by simp
  have hSome (value : Json) : value.lines 0 "" "" ≠ [] := by
    rw [lines_eq]
    exact List.cons_ne_nil _ _
  have hLines : a.lines 0 "" "" = b.lines 0 "" "" := by
    apply Text.join_lines_inj
    · intro text hMem
      exact not_mem_lines a hNone hNone hMem
    · intro text hMem
      exact not_mem_lines b hNone hNone hMem
    · rw [Text.join_lines_eq_intercalate (hSome a),
        Text.join_lines_eq_intercalate (hSome b)]
      exact congrArg (· ++ "\n") h
  have hTrails : Trails "" := by simp [Trails]
  have hBoth :
      a.lines 0 "" "" ++ [] = b.lines 0 "" "" ++ [] := by
    rw [hLines]
  exact (lines_append_inj a hTrails hTrails hBoth).1

end Json

end LetLang
