import LetLang.Proofs.Scan.Spelling
import Mathlib.Logic.ExistsUnique

/-
  The lexical grammar: a text is decomposed into tokens and
  the gaps around them.

  The grammar does not speak of scanning. It lists the forms
  of tokens, and the pairs of tokens that need a gap between
  them because the first would run on into the second. A
  spelling says the same with a look at the next character;
  the first character of a token tells its class, so the two
  agree. The gaps are determined by the tokens, since no
  token starts with a space.

  Key definitions include:
    * `Token.IsFormed`
    * `Token.RunsInto`
    * `Scan.interleave`
    * `Scan.Decomposition`

  Main declarations:
    * `Token.isFormed_iff`
    * `Token.endsBefore_literal_iff`
    * `Scan.spelling_iff_decomposition`
    * `Scan.Decomposition.gaps_unique`
    * `Scan.tokenize_iff_decomposition`
-/

------------------------------------------------------------
-- Forms of Tokens
------------------------------------------------------------

namespace LetLang

open Text

namespace Token

/-
  The token is of one of the forms of the grammar. An
  illegal token is a character that fits no other form.
-/
inductive IsFormed : Token → Prop where
  | symbol
      {c : Char}
      {kind : Kind}
      (hSymbol : (c, kind) ∈ symbols) :
      IsFormed ⟨kind, String.singleton c⟩
  | assign : IsFormed ⟨.assign, "="⟩
  | bang : IsFormed ⟨.bang, "!"⟩
  | equal : IsFormed ⟨.equal, "=="⟩
  | notEqual : IsFormed ⟨.notEqual, "!="⟩
  | number
      {run : List Char}
      (hRun : run ≠ [])
      (hDigits : ∀ c ∈ run, isDigit c = true) :
      IsFormed ⟨.int, String.ofList run⟩
  | word
      {run : List Char}
      (hRun : run ≠ [])
      (hLetters : ∀ c ∈ run, isLetter c = true) :
      IsFormed
        ⟨kindOfWord (String.ofList run), String.ofList run⟩
  | illegal
      {c : Char}
      (hSymbol : ∀ kind, (c, kind) ∉ symbols)
      (hEqual : c ≠ '=')
      (hBang : c ≠ '!')
      (hDigit : isDigit c = false)
      (hLetter : isLetter c = false)
      (hSpace : isSpace c = false) :
      IsFormed ⟨.illegal, String.singleton c⟩

theorem kindOfSymbol?_of_mem
    {c : Char}
    {kind : Kind}
    (hSymbol : (c, kind) ∈ symbols) :
    Scan.standsAlone c = true ∧
      kindOfSymbol? c = some kind := by
  have hRows :
      ∀ row ∈ symbols,
        Scan.standsAlone row.1 = true ∧
          kindOfSymbol? row.1 = some row.2 := by
    decide
  exact hRows (c, kind) hSymbol

theorem mem_of_kindOfSymbol?
    {c : Char}
    {kind : Kind}
    (hKind : kindOfSymbol? c = some kind) :
    (c, kind) ∈ symbols := by
  rcases List.lookup_eq_some_iff.mp hKind with
    ⟨before, after, hSplit, -⟩
  rw [hSplit]
  exact List.mem_append_right _ (List.mem_cons_self ..)

/- A character that stands alone is of a form. -/
theorem isFormed_single
    {c : Char}
    (hAlone : Scan.standsAlone c = true) :
    (Scan.single c).IsFormed := by
  rcases Scan.standsAlone_iff.mp hAlone with
    ⟨hDigit, hLetter, hSpace, hEqual, hBang⟩
  unfold Scan.single
  cases hKind : kindOfSymbol? c with
  | some kind => exact .symbol (mem_of_kindOfSymbol? hKind)
  | none =>
      apply IsFormed.illegal _ hEqual hBang hDigit hLetter
        hSpace
      intro kind hSymbol
      rw [(kindOfSymbol?_of_mem hSymbol).2] at hKind
      cases hKind

/-
  The forms of the grammar are those of the tokens that have
  the text that is scanned as them.
-/
theorem isFormed_iff
    {token : Token} :
    token.IsFormed ↔ token.IsLexical := by
  constructor
  · intro hFormed
    cases hFormed with
    | @symbol c kind hSymbol =>
        rcases kindOfSymbol?_of_mem hSymbol with
          ⟨hAlone, hKind⟩
        have hSingle :
            (⟨kind, String.singleton c⟩ : Token) =
              Scan.single c := by
          simp [Scan.single, hKind]
        rw [hSingle]
        exact .single hAlone
    | assign => exact .assign
    | bang => exact .bang
    | equal => exact .equal
    | notEqual => exact .notEqual
    | number hRun hDigits => exact .number hRun hDigits
    | word hRun hLetters => exact .word hRun hLetters
    | @illegal c hSymbol hEqual hBang hDigit hLetter
        hSpace =>
        have hAlone : Scan.standsAlone c = true :=
          Scan.standsAlone_iff.mpr
            ⟨hDigit, hLetter, hSpace, hEqual, hBang⟩
        have hKind : kindOfSymbol? c = none := by
          apply Option.eq_none_iff_forall_ne_some.mpr
          intro kind hSome
          exact hSymbol kind (mem_of_kindOfSymbol? hSome)
        have hSingle :
            (⟨.illegal, String.singleton c⟩ : Token) =
              Scan.single c := by
          simp [Scan.single, hKind]
        rw [hSingle]
        exact .single hAlone
  · intro hLexical
    cases hLexical with
    | single hAlone => exact isFormed_single hAlone
    | assign => exact .assign
    | bang => exact .bang
    | equal => exact .equal
    | notEqual => exact .notEqual
    | number hRun hDigits => exact .number hRun hDigits
    | word hRun hLetters => exact .word hRun hLetters

------------------------------------------------------------
-- Tokens that Need a Gap
------------------------------------------------------------

/-
  Without a gap the first token would run on into the
  second: two words, two numbers, or a sign that an equals
  sign continues.
-/
def RunsInto
    (first second : Token) : Prop :=
  (first.kind.isWordLike = true ∧
      second.kind.isWordLike = true) ∨
    (first.kind = .int ∧ second.kind = .int) ∨
    ((first.literal = "=" ∨ first.literal = "!") ∧
      second.literal.toList.head? = some '=')

/- The first character of a token tells its class. -/
theorem IsLexical.exists_head
    {token : Token}
    (hLexical : token.IsLexical) :
    ∃ c rest,
      token.literal.toList = c :: rest ∧
        isSpace c = false ∧
        (isDigit c = true ↔ token.kind = .int) ∧
        (isLetter c = true ↔
          token.kind.isWordLike = true) := by
  cases hLexical with
  | @single c hAlone =>
      rcases Scan.standsAlone_iff.mp hAlone with
        ⟨hDigit, hLetter, hSpace, -, -⟩
      rcases Scan.kind_single c with ⟨hInt, hWord, -⟩
      refine
        ⟨c, [], String.toList_singleton c, hSpace, ?_, ?_⟩
      · simp [hDigit, hInt]
      · simp [hLetter, hWord]
  | assign => exact ⟨'=', [], rfl, by decide⟩
  | bang => exact ⟨'!', [], rfl, by decide⟩
  | equal => exact ⟨'=', ['='], rfl, by decide⟩
  | notEqual => exact ⟨'!', ['='], rfl, by decide⟩
  | @number run hRun hDigits =>
      rcases List.exists_cons_of_ne_nil hRun with
        ⟨c, digits, rfl⟩
      have hDigit : isDigit c = true :=
        hDigits c (List.mem_cons_self ..)
      have hLetter : isLetter c = false := by
        apply Bool.eq_false_iff.mpr
        intro hIs
        rw [isDigit_of_isLetter hIs] at hDigit
        cases hDigit
      refine
        ⟨c, digits, String.toList_ofList,
          isSpace_of_isDigit hDigit, ?_, ?_⟩
      · simp [hDigit, Scan.number]
      · simp [hLetter, Scan.number, Kind.isWordLike]
  | @word run hRun hLetters =>
      rcases List.exists_cons_of_ne_nil hRun with
        ⟨c, letters, rfl⟩
      have hLetter : isLetter c = true :=
        hLetters c (List.mem_cons_self ..)
      have hDigit : isDigit c = false :=
        isDigit_of_isLetter hLetter
      have hWord :
          (Scan.word (c :: letters)).kind.isWordLike =
            true :=
        isWordLike_kindOfWord _
      have hInt : (Scan.word (c :: letters)).kind ≠ .int :=
        Scan.kind_word_ne rfl _
      refine
        ⟨c, letters, String.toList_ofList,
          isSpace_of_isLetter hLetter, ?_, ?_⟩
      · simp [hDigit, hInt]
      · simp [hLetter, hWord]

theorem isSpace_eq_false_of_any
    {text : List Char}
    (hAny : text.any isSpace = false)
    {c : Char}
    (hMem : c ∈ text) :
    isSpace c = false :=
  Bool.eq_false_iff.mpr (List.any_eq_false.mp hAny c hMem)

/- No character of a token is a space. -/
theorem IsLexical.isSpace_eq_false
    {token : Token}
    (hLexical : token.IsLexical)
    {c : Char}
    (hMem : c ∈ token.literal.toList) :
    isSpace c = false := by
  cases hLexical with
  | @single d hAlone =>
      have hSame : c = d := by
        simpa [Scan.single] using hMem
      rw [hSame]
      exact (Scan.standsAlone_iff.mp hAlone).2.2.1
  | number hRun hDigits =>
      apply isSpace_of_isDigit
      apply hDigits
      simpa [Scan.number] using hMem
  | word hRun hLetters =>
      apply isSpace_of_isLetter
      apply hLetters
      simpa [Scan.word] using hMem
  | _ => exact isSpace_eq_false_of_any rfl hMem

/- The text of a token tells its kind. -/
theorem IsLexical.eq_of_literal_eq
    {a b : Token}
    (hA : a.IsLexical)
    (hB : b.IsLexical)
    (hLiteral : a.literal = b.literal) :
    a = b := by
  have hTokens := a.isLexical_iff.mp hA
  rw [hLiteral, b.isLexical_iff.mp hB] at hTokens
  exact (List.singleton_inj.mp hTokens).symm

/- The signs that may be continued are known by their texts. -/
theorem IsLexical.kind_sign_iff
    {token : Token}
    (hLexical : token.IsLexical) :
    token.kind = .assign ∨ token.kind = .bang ↔
      token.literal = "=" ∨ token.literal = "!" := by
  constructor
  · intro hKind
    cases hLexical with
    | @single c hAlone =>
        rcases Scan.kind_single c with ⟨-, -, hAssign, hBang, -⟩
        exact absurd hKind (by simp [hAssign, hBang])
    | assign => exact Or.inl rfl
    | bang => exact Or.inr rfl
    | equal => simp at hKind
    | notEqual => simp at hKind
    | number hRun hDigits => simp [Scan.number] at hKind
    | word hRun hLetters =>
        rcases hKind with hKind | hKind
        · exact absurd hKind (Scan.kind_word_ne rfl _)
        · exact absurd hKind (Scan.kind_word_ne rfl _)
  · rintro (hLiteral | hLiteral)
    · exact Or.inl
        (congrArg Token.kind
          (hLexical.eq_of_literal_eq .assign hLiteral))
    · exact Or.inr
        (congrArg Token.kind
          (hLexical.eq_of_literal_eq .bang hLiteral))

/-
  A token ends before another one that follows it without a
  gap exactly if it does not run into it.
-/
theorem endsBefore_literal_iff
    {first second : Token}
    (hFirst : first.IsLexical)
    (hSecond : second.IsLexical)
    (text : List Char) :
    first.EndsBefore (second.literal.toList ++ text) ↔
      ¬ first.RunsInto second := by
  rcases hSecond.exists_head with
    ⟨c, rest, hLiteral, -, hDigit, hLetter⟩
  have hSign := hFirst.kind_sign_iff
  simp only [EndsBefore, RunsInto, hLiteral,
    List.cons_append, List.head?_cons, Option.mem_def,
    Option.some.injEq, forall_eq', ← hSign, ← hDigit,
    ← hLetter, ← Bool.not_eq_true, not_or, not_and, ne_eq]
  constructor
  · rintro ⟨hInt, hWord, hAssign⟩
    exact ⟨hWord, hInt, hAssign⟩
  · rintro ⟨hWord, hInt, hAssign⟩
    exact ⟨hInt, hWord, hAssign⟩

end Token

------------------------------------------------------------
-- Decompositions
------------------------------------------------------------

namespace Scan

/-
  The texts of tokens in order, with a gap before each of
  them and one behind the last.
-/
def interleave :
    List (List Char) → List Token → List Char
  | [], _ => []
  | gap :: _, [] => gap
  | gap :: gaps, token :: tokens =>
      gap ++ (token.literal.toList ++ interleave gaps tokens)

/-
  A text is made of tokens and one gap more than tokens. The
  gaps are blank, and a gap is not empty where the token
  before it would run into the token behind it.
-/
structure Decomposition
    (text : List Char)
    (gaps : List (List Char))
    (tokens : List Token) : Prop where
  text_eq : text = interleave gaps tokens
  length_eq : gaps.length = tokens.length + 1
  isSpace :
    ∀ gap ∈ gaps, ∀ c ∈ gap, Text.isSpace c = true
  isFormed : ∀ token ∈ tokens, token.IsFormed
  apart :
    ∀ i first second,
      tokens[i]? = some first →
        tokens[i + 1]? = some second →
          gaps[i + 1]? = some [] →
            ¬ first.RunsInto second

namespace Decomposition

theorem gaps_of_nil
    {text : List Char}
    {gaps : List (List Char)}
    (h : Decomposition text gaps []) :
    gaps = [text] ∧ ∀ c ∈ text, Text.isSpace c = true := by
  rcases List.length_eq_one_iff.mp h.length_eq with
    ⟨gap, rfl⟩
  have hText : text = gap := h.text_eq
  subst hText
  exact ⟨rfl, h.isSpace text (List.mem_singleton_self _)⟩

/- What is behind the first token is decomposed as well. -/
theorem exists_of_cons
    {text : List Char}
    {gaps : List (List Char)}
    {token : Token}
    {tokens : List Token}
    (h : Decomposition text gaps (token :: tokens)) :
    ∃ gap later rest,
      gaps = gap :: later ∧
        text = gap ++ (token.literal.toList ++ rest) ∧
        (∀ c ∈ gap, Text.isSpace c = true) ∧
        token.IsFormed ∧
        (∀ second ∈ tokens.head?,
          later.head? = some [] →
            ¬ token.RunsInto second) ∧
        Decomposition rest later tokens := by
  cases gaps with
  | nil =>
      have hLength := h.length_eq
      simp at hLength
  | cons gap later =>
      refine
        ⟨gap, later, interleave later tokens, rfl,
          h.text_eq, h.isSpace gap (List.mem_cons_self ..),
          h.isFormed token (List.mem_cons_self ..), ?_,
          rfl, ?_, ?_, ?_, ?_⟩
      · intro second hSecond hGap
        rw [List.head?_eq_getElem?] at hSecond hGap
        exact h.apart 0 token second rfl hSecond hGap
      · have hLength := h.length_eq
        simpa using hLength
      · intro other hMem
        exact h.isSpace other (List.mem_cons_of_mem _ hMem)
      · intro other hMem
        exact h.isFormed other (List.mem_cons_of_mem _ hMem)
      · intro i first second hFirst hSecond hGap
        apply h.apart (i + 1) first second
        · simpa using hFirst
        · simpa using hSecond
        · simpa using hGap

/- A token with a gap is put before a decomposition. -/
theorem cons
    {rest gap : List Char}
    {gaps : List (List Char)}
    {token : Token}
    {tokens : List Token}
    (hGap : ∀ c ∈ gap, Text.isSpace c = true)
    (hToken : token.IsFormed)
    (hApart :
      ∀ second ∈ tokens.head?,
        gaps.head? = some [] → ¬ token.RunsInto second)
    (h : Decomposition rest gaps tokens) :
    Decomposition (gap ++ (token.literal.toList ++ rest))
      (gap :: gaps) (token :: tokens) := by
  constructor
  · rw [h.text_eq]
    rfl
  · simp [h.length_eq]
  · intro other hMem
    rcases List.mem_cons.mp hMem with rfl | hMem
    · exact hGap
    · exact h.isSpace other hMem
  · intro other hMem
    rcases List.mem_cons.mp hMem with rfl | hMem
    · exact hToken
    · exact h.isFormed other hMem
  · intro i first second hFirst hSecond hEmpty
    cases i with
    | zero =>
        simp only [List.getElem?_cons_zero,
          Option.some.injEq] at hFirst
        subst hFirst
        rw [List.getElem?_cons_succ] at hSecond hEmpty
        rw [← List.head?_eq_getElem?] at hSecond hEmpty
        exact hApart second hSecond hEmpty
    | succ i =>
        apply h.apart i first second
        · simpa using hFirst
        · simpa using hSecond
        · simpa using hEmpty

/-
  The tokens of a decomposed text determine the gaps: a gap
  is all that is blank before the next token.
-/
theorem gaps_unique
    {tokens : List Token}
    {text : List Char}
    {gaps others : List (List Char)}
    (h : Decomposition text gaps tokens)
    (hOther : Decomposition text others tokens) :
    gaps = others := by
  induction tokens generalizing text gaps others with
  | nil => rw [h.gaps_of_nil.1, hOther.gaps_of_nil.1]
  | cons token tokens ih =>
      rcases h.exists_of_cons with
        ⟨gap, later, rest, rfl, hText, hGap, hFormed, -,
          hLater⟩
      rcases hOther.exists_of_cons with
        ⟨otherGap, otherLater, otherRest, rfl, hOtherText,
          hOtherGap, -, -, hOtherLater⟩
      have hHead (tail : List Char) :
          ∀ c ∈ (token.literal.toList ++ tail).head?,
            Text.isSpace c = false := by
        rcases (Token.isFormed_iff.mp hFormed).exists_head
          with ⟨c, own, hLiteral, hSpace, -, -⟩
        rw [hLiteral]
        intro d hMem
        cases hMem
        exact hSpace
      have hSplit :=
        takeWhile_append_of_head? hGap (hHead rest)
      have hOtherSplit :=
        takeWhile_append_of_head? hOtherGap
          (hHead otherRest)
      rw [← hText] at hSplit
      rw [← hOtherText] at hOtherSplit
      have hSameGap : gap = otherGap := by
        rw [← hSplit.1, ← hOtherSplit.1]
      have hSameRest : rest = otherRest := by
        have hBoth := hSplit.2
        rw [hOtherSplit.2] at hBoth
        exact (List.append_cancel_left hBoth).symm
      subst hSameRest
      rw [hSameGap, ih hLater hOtherLater]

end Decomposition

/- A spelling has gaps, which decompose its text. -/
theorem Spelling.exists_decomposition
    {tokens : List Token}
    {text : List Char}
    (hSpelling : Spelling tokens text) :
    ∃ gaps, Decomposition text gaps tokens := by
  induction hSpelling with
  | @nil blanks hBlanks =>
      refine ⟨[blanks], rfl, rfl, ?_, ?_, ?_⟩
      · intro gap hMem
        rw [List.mem_singleton.mp hMem]
        exact hBlanks
      · intro token hMem
        cases hMem
      · intro i first second hFirst
        simp at hFirst
  | @cons token tokens blanks text hBlanks hLexical hEnds
      hText ih =>
      rcases ih with ⟨gaps, hGaps⟩
      refine
        ⟨blanks :: gaps,
          .cons hBlanks (Token.isFormed_iff.mpr hLexical)
            ?_ hGaps⟩
      intro second hSecond hEmpty
      cases tokens with
      | nil => cases hSecond
      | cons next tokens =>
          cases hSecond
          rcases hGaps.exists_of_cons with
            ⟨gap, later, rest, rfl, rfl, -, hFormed, -, -⟩
          cases hEmpty
          exact
            (Token.endsBefore_literal_iff hLexical
              (Token.isFormed_iff.mp hFormed) rest).mp hEnds

/- A decomposed text is spelled. -/
theorem Decomposition.spelling
    {tokens : List Token}
    {text : List Char}
    {gaps : List (List Char)}
    (h : Decomposition text gaps tokens) :
    Spelling tokens text := by
  induction tokens generalizing text gaps with
  | nil => exact .nil h.gaps_of_nil.2
  | cons token tokens ih =>
      rcases h.exists_of_cons with
        ⟨gap, later, rest, rfl, rfl, hGap, hFormed, hApart,
          hLater⟩
      have hLexical := Token.isFormed_iff.mp hFormed
      have hEnds : token.EndsBefore rest := by
        cases tokens with
        | nil =>
            apply Token.endsBefore_of_isSpace
            intro c hMem
            exact hLater.gaps_of_nil.2 c
              (List.mem_of_mem_head? hMem)
        | cons next tokens =>
            rcases hLater.exists_of_cons with
              ⟨between, others, behind, rfl, rfl, hBlank,
                hNext, -, -⟩
            cases between with
            | nil =>
                apply
                  (Token.endsBefore_literal_iff hLexical
                    (Token.isFormed_iff.mp hNext) behind).mpr
                exact hApart next rfl rfl
            | cons blank between =>
                apply Token.endsBefore_of_isSpace
                intro c hMem
                cases hMem
                exact hBlank blank (List.mem_cons_self ..)
      exact .cons hGap hLexical hEnds (ih hLater)

/- Spellings and decompositions are the same. -/
theorem spelling_iff_decomposition
    {tokens : List Token}
    {text : List Char} :
    Spelling tokens text ↔
      ∃ gaps, Decomposition text gaps tokens := by
  constructor
  · intro hSpelling
    exact hSpelling.exists_decomposition
  · rintro ⟨gaps, h⟩
    exact h.spelling

------------------------------------------------------------
-- The Scanner and the Grammar
------------------------------------------------------------

/- The tokens of a source are those that it is spelled by. -/
theorem tokenize_eq_iff_spelling
    {source : String}
    {listed : List Token} :
    tokenize source = listed ++ [Token.eof] ↔
      Spelling listed source.toList := by
  unfold tokenize
  rw [List.append_left_inj]
  constructor
  · intro hTokens
    rw [← hTokens]
    exact spelling_tokens source.toList
  · exact tokens_of_spelling

/- Only the blanks of a spelling are in none of its tokens. -/
theorem Spelling.flatMap_literal
    {tokens : List Token}
    {text : List Char}
    (hSpelling : Spelling tokens text) :
    tokens.flatMap (fun token => token.literal.toList) =
      text.filter (fun c => !Text.isSpace c) := by
  induction hSpelling with
  | @nil blanks hBlanks =>
      symm
      apply List.filter_eq_nil_iff.mpr
      intro c hMem
      simp [hBlanks c hMem]
  | @cons token tokens blanks text hBlanks hLexical hEnds
      hText ih =>
      have hGap :
          blanks.filter (fun c => !Text.isSpace c) = [] := by
        apply List.filter_eq_nil_iff.mpr
        intro c hMem
        simp [hBlanks c hMem]
      have hOwn :
          token.literal.toList.filter
              (fun c => !Text.isSpace c) =
            token.literal.toList := by
        apply List.filter_eq_self.mpr
        intro c hMem
        simp [hLexical.isSpace_eq_false hMem]
      rw [List.filter_append, List.filter_append, hGap,
        hOwn, ← ih]
      rfl

/-
  The scanner implements the grammar: the tokens that it
  lists are those of a decomposition of the source, of which
  there is exactly one, and no character other than a space
  is lost.
-/
theorem tokenize_iff_decomposition
    (source : String) :
    (∀ listed,
        tokenize source = listed ++ [Token.eof] ↔
          ∃ gaps,
            Decomposition source.toList gaps listed) ∧
      (∃! parts : List (List Char) × List Token,
        Decomposition source.toList parts.1 parts.2) ∧
      (tokenize source).flatMap
          (fun token => token.literal.toList) =
        source.toList.filter (fun c => !Text.isSpace c) := by
  have hSpelling := spelling_tokens source.toList
  refine ⟨?_, ?_, ?_⟩
  · intro listed
    rw [tokenize_eq_iff_spelling]
    exact spelling_iff_decomposition
  · rcases hSpelling.exists_decomposition with
      ⟨gaps, hGaps⟩
    refine ⟨(gaps, tokens source.toList), hGaps, ?_⟩
    rintro ⟨others, listed⟩ hOthers
    have hListed : tokens source.toList = listed :=
      tokens_of_spelling hOthers.spelling
    subst hListed
    have hSame : others = gaps :=
      hOthers.gaps_unique hGaps
    rw [hSame]
  · have hFlat := hSpelling.flatMap_literal
    simpa [tokenize, Token.eof] using hFlat

end Scan

end LetLang
