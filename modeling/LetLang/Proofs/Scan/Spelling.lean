import LetLang.Proofs.Tree.Canonical
import LetLang.Scan.Lexeme

/-
  Spellings: how a list of tokens is written as a text.

  A spelling is the texts of the tokens in order with blanks
  around them. Where two tokens touch, the first must not
  run on into the second. The scanner finds the tokens of a
  text exactly when the text is a spelling of them.

  Key definitions include:
    * `Scan.standsAlone`
    * `Token.IsLexical`
    * `Token.EndsBefore`
    * `Scan.Spelling`

  Main declarations:
    * `Scan.first?_of_lexical`
    * `Scan.tokens_of_spelling`
    * `Scan.spelling_tokens`
-/

------------------------------------------------------------
-- Tokens with Their Own Text
------------------------------------------------------------

namespace LetLang

open Text

/-
  Whether a character is a token by itself: it separates
  nothing and starts no longer token.
-/
def Scan.standsAlone
    (c : Char) : Bool :=
  !(isDigit c || isLetter c || isSpace c
    || c == '=' || c == '!')

namespace Token

/- The token has the text that is scanned as it. -/
inductive IsLexical : Token → Prop where
  | single
      {c : Char}
      (hAlone : Scan.standsAlone c = true) :
      IsLexical (Scan.single c)
  | assign : IsLexical ⟨.assign, "="⟩
  | bang : IsLexical ⟨.bang, "!"⟩
  | equal : IsLexical ⟨.equal, "=="⟩
  | notEqual : IsLexical ⟨.notEqual, "!="⟩
  | number
      {run : List Char}
      (hRun : run ≠ [])
      (hDigits : ∀ c ∈ run, isDigit c = true) :
      IsLexical (Scan.number run)
  | word
      {run : List Char}
      (hRun : run ≠ [])
      (hLetters : ∀ c ∈ run, isLetter c = true) :
      IsLexical (Scan.word run)

/-
  The token ends where a text begins: the first character of
  the text would not be taken as part of the token.
-/
def EndsBefore
    (text : List Char)
    (token : Token) : Prop :=
  ∀ c ∈ text.head?,
    (token.kind = .int → isDigit c = false) ∧
      (token.kind.isWordLike = true →
        isLetter c = false) ∧
      (token.kind = .assign ∨ token.kind = .bang →
        c ≠ '=')

end Token

------------------------------------------------------------
-- Disjoint Classes
------------------------------------------------------------

namespace Text

theorem classes_of_isSpace
    {c : Char}
    (h : isSpace c = true) :
    isDigit c = false ∧ isLetter c = false ∧ c ≠ '=' := by
  have hMem := List.contains_iff_mem.mp h
  simp only [spaces, List.mem_cons, List.not_mem_nil,
    or_false] at hMem
  rcases hMem with rfl | rfl | rfl | rfl | rfl <;> decide

theorem isSpace_of_isDigit
    {c : Char}
    (h : isDigit c = true) :
    isSpace c = false := by
  apply Bool.eq_false_iff.mpr
  intro hSpace
  rw [(classes_of_isSpace hSpace).1] at h
  cases h

theorem isSpace_of_isLetter
    {c : Char}
    (h : isLetter c = true) :
    isSpace c = false := by
  apply Bool.eq_false_iff.mpr
  intro hSpace
  rw [(classes_of_isSpace hSpace).2.1] at h
  cases h

/- A letter is no digit. -/
theorem isDigit_of_isLetter
    {c : Char}
    (h : isLetter c = true) :
    isDigit c = false := by
  apply Bool.eq_false_iff.mpr
  intro hDigit
  have hRange : 48 ≤ c.toNat ∧ c.toNat ≤ 57 :=
    Char.isDigit_iff_toNat.mp hDigit
  have hTests :
      (c == '_'
        || (decide ('A'.val ≤ c.val ∧ c.val ≤ 'Z'.val)
          || (decide ('a'.val ≤ c.val)
            && decide (c.val ≤ 'z'.val)))) =
        true := h
  simp only [Bool.or_eq_true, Bool.and_eq_true,
    beq_iff_eq, decide_eq_true_eq] at hTests
  have hLetter :
      c = '_' ∨ (65 ≤ c.toNat ∧ c.toNat ≤ 90) ∨
        (97 ≤ c.toNat ∧ c.toNat ≤ 122) := hTests
  rcases hLetter with rfl | hUpper | hLower
  · exact absurd hDigit (by decide)
  · omega
  · omega

end Text

namespace Token

/- Every token ends before a character of no run. -/
theorem endsBefore_of_classes
    {text : List Char}
    (h :
      ∀ c ∈ text.head?,
        isDigit c = false ∧ isLetter c = false ∧ c ≠ '=')
    (token : Token) :
    token.EndsBefore text := by
  intro c hHead
  rcases h c hHead with ⟨hDigit, hLetter, hSign⟩
  exact ⟨fun _ => hDigit, fun _ => hLetter, fun _ => hSign⟩

theorem endsBefore_of_isSpace
    {text : List Char}
    (h : ∀ c ∈ text.head?, isSpace c = true)
    (token : Token) :
    token.EndsBefore text := by
  apply endsBefore_of_classes
  intro c hHead
  exact classes_of_isSpace (h c hHead)

theorem endsBefore_of_semicolon
    {token : Token}
    (hKind : token.kind = .semicolon)
    (text : List Char) :
    token.EndsBefore text := by
  intro c hHead
  simp [hKind, Kind.isWordLike]

end Token

namespace Scan

theorem standsAlone_iff
    {c : Char} :
    standsAlone c = true ↔
      isDigit c = false ∧ isLetter c = false ∧
        isSpace c = false ∧ c ≠ '=' ∧ c ≠ '!' := by
  simp [standsAlone, and_assoc]

/-
  The token of such a character is no number, no word and
  none of the signs that may run on.
-/
theorem kind_single
    (c : Char) :
    (single c).kind ≠ .int ∧
      (single c).kind.isWordLike = false ∧
      (single c).kind ≠ .assign ∧
      (single c).kind ≠ .bang ∧
      (single c).kind ≠ .eof := by
  let P (kind : Token.Kind) : Prop :=
    kind ≠ .int ∧ kind.isWordLike = false ∧
      kind ≠ .assign ∧ kind ≠ .bang ∧ kind ≠ .eof
  have h : P ((Token.symbols.lookup c).getD .illegal) :=
    Token.lookup_getD_of_forall (by decide) (by decide) c
  exact h

theorem kind_word_ne
    {kind : Token.Kind}
    (hKind : kind.isWordLike = false)
    (run : List Char) :
    (word run).kind ≠ kind := by
  intro hSame
  have hWord :=
    Token.isWordLike_kindOfWord (String.ofList run)
  simp only [word] at hSame
  rw [hSame, hKind] at hWord
  cases hWord

------------------------------------------------------------
-- Reading a Token
------------------------------------------------------------

theorem first?_append_of_isSpace
    {blanks : List Char}
    (h : ∀ c ∈ blanks, isSpace c = true)
    (text : List Char) :
    first? (blanks ++ text) = first? text := by
  unfold first?
  rw [List.dropWhile_append_of_pos h]

theorem first?_of_isSpace
    {blanks : List Char}
    (h : ∀ c ∈ blanks, isSpace c = true) :
    first? blanks = none := by
  have hBlanks := first?_append_of_isSpace h []
  rw [List.append_nil] at hBlanks
  rw [hBlanks]
  rfl

theorem first?_cons
    {c : Char}
    (h : isSpace c = false)
    (text : List Char) :
    first? (c :: text) = some (lexeme c text) := by
  simp [first?, h]

/-
  A run of a class is taken as a whole, and nothing more if
  the text after it does not go on with the class.
-/
theorem takeWhile_append_of_head?
    {p : Char → Bool}
    {run text : List Char}
    (hRun : ∀ c ∈ run, p c = true)
    (hText : ∀ c ∈ text.head?, p c = false) :
    (run ++ text).takeWhile p = run ∧
      (run ++ text).dropWhile p = text := by
  rw [List.takeWhile_append_of_pos hRun,
    List.dropWhile_append_of_pos hRun]
  cases text with
  | nil => exact ⟨List.append_nil run, rfl⟩
  | cons c text =>
      have hHead : p c = false := hText c rfl
      simp [hHead]

theorem lexeme_of_standsAlone
    {c : Char}
    (hAlone : standsAlone c = true)
    (text : List Char) :
    lexeme c text = (single c, text) := by
  rcases standsAlone_iff.mp hAlone with
    ⟨hDigit, hLetter, -, hEqual, hBang⟩
  unfold lexeme
  rw [hDigit, hLetter]
  simp [hEqual, hBang]

theorem lexeme_equalsSign
    {text : List Char}
    (h : ∀ c ∈ text.head?, c ≠ '=') :
    lexeme '=' text = (⟨.assign, "="⟩, text) := by
  unfold lexeme
  rw [if_neg (by decide), if_neg (by decide)]
  cases text with
  | nil => rfl
  | cons c text =>
      have hSign : c ≠ '=' := h c rfl
      simp [hSign]

theorem lexeme_exclamationMark
    {text : List Char}
    (h : ∀ c ∈ text.head?, c ≠ '=') :
    lexeme '!' text = (⟨.bang, "!"⟩, text) := by
  unfold lexeme
  rw [if_neg (by decide), if_neg (by decide)]
  cases text with
  | nil => rfl
  | cons c text =>
      have hSign : c ≠ '=' := h c rfl
      simp [hSign]

theorem first?_number
    {c : Char}
    {digits text : List Char}
    (hRun : ∀ d ∈ c :: digits, isDigit d = true)
    (hText : ∀ d ∈ text.head?, isDigit d = false) :
    first? (c :: (digits ++ text)) =
      some (number (c :: digits), text) := by
  have hFirst : isDigit c = true :=
    hRun c (List.mem_cons_self ..)
  have hOwn : ∀ d ∈ digits, isDigit d = true := by
    intro d hMem
    exact hRun d (List.mem_cons_of_mem _ hMem)
  have hSplit := takeWhile_append_of_head? hOwn hText
  rw [first?_cons (isSpace_of_isDigit hFirst)]
  unfold lexeme
  rw [if_pos hFirst, hSplit.1, hSplit.2]

theorem first?_word
    {c : Char}
    {letters text : List Char}
    (hRun : ∀ d ∈ c :: letters, isLetter d = true)
    (hText : ∀ d ∈ text.head?, isLetter d = false) :
    first? (c :: (letters ++ text)) =
      some (word (c :: letters), text) := by
  have hFirst : isLetter c = true :=
    hRun c (List.mem_cons_self ..)
  have hNotDigit := isDigit_of_isLetter hFirst
  have hOwn : ∀ d ∈ letters, isLetter d = true := by
    intro d hMem
    exact hRun d (List.mem_cons_of_mem _ hMem)
  have hSplit := takeWhile_append_of_head? hOwn hText
  rw [first?_cons (isSpace_of_isLetter hFirst)]
  unfold lexeme
  rw [hNotDigit, if_pos hFirst, hSplit.1, hSplit.2]
  rfl

/- The first token of a text that starts with one. -/
theorem first?_of_lexical
    {token : Token}
    {text : List Char}
    (hLexical : token.IsLexical)
    (hEnds : token.EndsBefore text) :
    first? (token.literal.toList ++ text) =
      some (token, text) := by
  cases hLexical with
  | @single c hAlone =>
      have hSpace := (standsAlone_iff.mp hAlone).2.2.1
      have hText :
          (single c).literal.toList ++ text = c :: text := by
        simp [single]
      rw [hText, first?_cons hSpace,
        lexeme_of_standsAlone hAlone]
  | assign =>
      have hHead : ∀ c ∈ text.head?, c ≠ '=' := by
        intro c hHead
        exact (hEnds c hHead).2.2 (Or.inl rfl)
      have hText :
          "=".toList ++ text = '=' :: text := rfl
      rw [hText, first?_cons (by decide),
        lexeme_equalsSign hHead]
  | bang =>
      have hHead : ∀ c ∈ text.head?, c ≠ '=' := by
        intro c hHead
        exact (hEnds c hHead).2.2 (Or.inr rfl)
      have hText :
          "!".toList ++ text = '!' :: text := rfl
      rw [hText, first?_cons (by decide),
        lexeme_exclamationMark hHead]
  | equal => rfl
  | notEqual => rfl
  | @number run hRun hDigits =>
      rcases List.exists_cons_of_ne_nil hRun with
        ⟨c, digits, rfl⟩
      have hNext : ∀ d ∈ text.head?, isDigit d = false := by
        intro d hHead
        exact (hEnds d hHead).1 rfl
      have hText :
          (number (c :: digits)).literal.toList ++ text =
            c :: (digits ++ text) := by
        simp [number]
      rw [hText, first?_number hDigits hNext]
  | @word run hRun hLetters =>
      rcases List.exists_cons_of_ne_nil hRun with
        ⟨c, letters, rfl⟩
      have hNext : ∀ d ∈ text.head?, isLetter d = false := by
        intro d hHead
        exact
          (hEnds d hHead).2.1 (Token.isWordLike_kindOfWord _)
      have hText :
          (word (c :: letters)).literal.toList ++ text =
            c :: (letters ++ text) := by
        simp [word]
      rw [hText, first?_word hLetters hNext]

theorem head?_dropWhile_eq_false
    {p : Char → Bool}
    {text : List Char}
    {c : Char}
    (hHead : c ∈ (text.dropWhile p).head?) :
    p c = false := by
  have hNot := List.head?_dropWhile_not p text
  rw [Option.mem_def.mp hHead] at hNot
  exact hNot

/- A run of digits is scanned as a number. -/
theorem lexical_number
    {c : Char}
    (hDigit : isDigit c = true)
    (text : List Char) :
    (number (c :: text.takeWhile isDigit)).IsLexical ∧
      (number (c :: text.takeWhile isDigit)).EndsBefore
        (text.dropWhile isDigit) := by
  constructor
  · apply Token.IsLexical.number (List.cons_ne_nil _ _)
    intro d hMem
    rcases List.mem_cons.mp hMem with rfl | hMem
    · exact hDigit
    · exact List.all_eq_true.mp List.all_takeWhile d hMem
  · intro d hHead
    refine ⟨?_, ?_, ?_⟩
    · intro _
      exact head?_dropWhile_eq_false hHead
    · intro hWord
      cases hWord
    · rintro (hSign | hSign) <;> cases hSign

/- A run of letters is scanned as a word. -/
theorem lexical_word
    {c : Char}
    (hLetter : isLetter c = true)
    (text : List Char) :
    (word (c :: text.takeWhile isLetter)).IsLexical ∧
      (word (c :: text.takeWhile isLetter)).EndsBefore
        (text.dropWhile isLetter) := by
  constructor
  · apply Token.IsLexical.word (List.cons_ne_nil _ _)
    intro d hMem
    rcases List.mem_cons.mp hMem with rfl | hMem
    · exact hLetter
    · exact List.all_eq_true.mp List.all_takeWhile d hMem
  · intro d hHead
    refine ⟨?_, ?_, ?_⟩
    · intro hInt
      exact absurd hInt (kind_word_ne rfl _)
    · intro _
      exact head?_dropWhile_eq_false hHead
    · rintro (hSign | hSign)
      · exact absurd hSign (kind_word_ne rfl _)
      · exact absurd hSign (kind_word_ne rfl _)

/- An equals sign is scanned with one that follows it. -/
theorem lexical_equalsSign
    (text : List Char) :
    (lexeme '=' text).1.IsLexical ∧
      (lexeme '=' text).1.EndsBefore
        (lexeme '=' text).2 := by
  by_cases hHead : ∀ c ∈ text.head?, c ≠ '='
  · rw [lexeme_equalsSign hHead]
    refine ⟨.assign, ?_⟩
    intro c hMem
    simp [Token.Kind.isWordLike, hHead c hMem]
  · cases text with
    | nil => simp at hHead
    | cons c text =>
        have hSign : c = '=' := by simpa using hHead
        subst hSign
        refine ⟨.equal, ?_⟩
        intro c hMem
        simp [lexeme, isDigit, isLetter,
          Token.Kind.isWordLike]

/- So is an exclamation mark. -/
theorem lexical_exclamationMark
    (text : List Char) :
    (lexeme '!' text).1.IsLexical ∧
      (lexeme '!' text).1.EndsBefore
        (lexeme '!' text).2 := by
  by_cases hHead : ∀ c ∈ text.head?, c ≠ '='
  · rw [lexeme_exclamationMark hHead]
    refine ⟨.bang, ?_⟩
    intro c hMem
    simp [Token.Kind.isWordLike, hHead c hMem]
  · cases text with
    | nil => simp at hHead
    | cons c text =>
        have hSign : c = '=' := by simpa using hHead
        subst hSign
        refine ⟨.notEqual, ?_⟩
        intro c hMem
        simp [lexeme, isDigit, isLetter,
          Token.Kind.isWordLike]

/-
  A token that is scanned has its own text and ends before
  what follows it.
-/
theorem lexical_lexeme
    {c : Char}
    (hSpace : isSpace c = false)
    (text : List Char) :
    (lexeme c text).1.IsLexical ∧
      (lexeme c text).1.EndsBefore (lexeme c text).2 := by
  by_cases hEqual : c = '='
  · subst hEqual
    exact lexical_equalsSign text
  by_cases hBang : c = '!'
  · subst hBang
    exact lexical_exclamationMark text
  by_cases hDigit : isDigit c = true
  · unfold lexeme
    rw [if_pos hDigit]
    exact lexical_number hDigit text
  by_cases hLetter : isLetter c = true
  · unfold lexeme
    rw [if_neg hDigit, if_pos hLetter]
    exact lexical_word hLetter text
  have hAlone : standsAlone c = true := by
    apply standsAlone_iff.mpr
    exact
      ⟨Bool.eq_false_iff.mpr hDigit,
        Bool.eq_false_iff.mpr hLetter, hSpace, hEqual,
        hBang⟩
  rw [lexeme_of_standsAlone hAlone]
  refine ⟨.single hAlone, ?_⟩
  intro d hMem
  rcases kind_single c with
    ⟨hInt, hWord, hAssign, hNegate, -⟩
  refine ⟨?_, ?_, ?_⟩
  · intro hKind
    exact absurd hKind hInt
  · intro hKind
    rw [hWord] at hKind
    cases hKind
  · rintro (hKind | hKind)
    · exact absurd hKind hAssign
    · exact absurd hKind hNegate

/- What the first token of a text is, and where it stands. -/
theorem lexical_of_first?
    {text rest : List Char}
    {token : Token}
    (h : first? text = some (token, rest)) :
    ∃ blanks,
      (∀ c ∈ blanks, isSpace c = true) ∧
        text = blanks ++ (token.literal.toList ++ rest) ∧
        token.IsLexical ∧ token.EndsBefore rest := by
  unfold first? at h
  split at h
  · cases h
  · rename_i c after hDrop
    have hSpace : isSpace c = false := by
      have hHead : c ∈ (text.dropWhile isSpace).head? := by
        rw [hDrop]
        rfl
      exact head?_dropWhile_eq_false hHead
    have hLexeme : lexeme c after = (token, rest) :=
      Option.some.inj h
    have hText := lexeme_append c after
    have hLexical := lexical_lexeme hSpace after
    rw [hLexeme] at hText hLexical
    refine
      ⟨text.takeWhile isSpace, ?_, ?_, hLexical.1,
        hLexical.2⟩
    · intro d hMem
      exact List.all_eq_true.mp List.all_takeWhile d hMem
    · rw [hText, ← hDrop,
        List.takeWhile_append_dropWhile]

/- A text without a token consists of blanks. -/
theorem isSpace_of_first?_eq_none
    {text : List Char}
    (h : first? text = none) :
    ∀ c ∈ text, isSpace c = true := by
  unfold first? at h
  split at h
  · rename_i hDrop
    have hSplit :
        text.takeWhile isSpace ++ text.dropWhile isSpace =
          text :=
      List.takeWhile_append_dropWhile
    rw [hDrop, List.append_nil] at hSplit
    intro c hMem
    rw [← hSplit] at hMem
    exact List.all_eq_true.mp List.all_takeWhile c hMem
  · cases h

------------------------------------------------------------
-- Spellings
------------------------------------------------------------

/-
  A text is made of the texts of the tokens, in order and
  between blanks, so that every token ends before what
  follows it.
-/
inductive Spelling :
    List Token → List Char → Prop where
  | nil
      {blanks : List Char}
      (hBlanks : ∀ c ∈ blanks, isSpace c = true) :
      Spelling [] blanks
  | cons
      {token : Token}
      {tokens : List Token}
      {blanks text : List Char}
      (hBlanks : ∀ c ∈ blanks, isSpace c = true)
      (hLexical : token.IsLexical)
      (hEnds : token.EndsBefore text)
      (hText : Spelling tokens text) :
      Spelling (token :: tokens)
        (blanks ++ (token.literal.toList ++ text))

/- A token alone is spelled by its text behind blanks. -/
theorem Spelling.single
    {token : Token}
    {blanks : List Char}
    (hBlanks : ∀ c ∈ blanks, isSpace c = true)
    (hLexical : token.IsLexical) :
    Spelling [token] (blanks ++ token.literal.toList) := by
  have hNil : Spelling [] [] := by
    apply Spelling.nil
    intro c hMem
    cases hMem
  have hEnds : token.EndsBefore [] := by
    intro c hHead
    cases hHead
  have hSpelling := hNil.cons hBlanks hLexical hEnds
  rw [List.append_nil] at hSpelling
  exact hSpelling

/- The tokens of a spelling are those that it spells. -/
theorem tokens_of_spelling
    {listed : List Token}
    {text : List Char}
    (h : Spelling listed text) :
    tokens text = listed := by
  induction h with
  | nil hBlanks =>
      exact tokens_of_none (first?_of_isSpace hBlanks)
  | @cons token listed blanks text hBlanks hLexical hEnds
      hText ih =>
      have hFirst :
          first?
              (blanks ++ (token.literal.toList ++ text)) =
            some (token, text) := by
        rw [first?_append_of_isSpace hBlanks]
        exact first?_of_lexical hLexical hEnds
      rw [tokens_of_some hFirst, ih]

/- Every text is a spelling of its tokens. -/
theorem spelling_tokens
    (text : List Char) :
    Spelling (tokens text) text := by
  induction text using tokens.induct with
  | case1 text hNone =>
      rw [tokens_of_none hNone]
      exact .nil (isSpace_of_first?_eq_none hNone)
  | case2 text token rest hSome ih =>
      rw [tokens_of_some hSome]
      rcases lexical_of_first? hSome with
        ⟨blanks, hBlanks, rfl, hLexical, hEnds⟩
      exact .cons hBlanks hLexical hEnds ih

/- Every token of a text has its own text. -/
theorem Spelling.isLexical
    {listed : List Token}
    {text : List Char}
    (h : Spelling listed text)
    {token : Token}
    (hMem : token ∈ listed) :
    token.IsLexical := by
  induction h with
  | nil hBlanks => cases hMem
  | cons hBlanks hLexical hEnds hText ih =>
      rcases List.mem_cons.mp hMem with rfl | hMem
      · exact hLexical
      · exact ih hMem

end Scan

------------------------------------------------------------
-- Tokens of a Text
------------------------------------------------------------

namespace Token

/- A token has its own text if this is scanned as it. -/
theorem isLexical_iff
    (token : Token) :
    token.IsLexical ↔
      Scan.tokens token.literal.toList = [token] := by
  constructor
  · intro hLexical
    have hBlanks :
        ∀ c ∈ ([] : List Char), isSpace c = true := by
      intro c hMem
      cases hMem
    exact
      Scan.tokens_of_spelling (.single hBlanks hLexical)
  · intro hTokens
    have hSpelling :=
      Scan.spelling_tokens token.literal.toList
    apply hSpelling.isLexical
    rw [hTokens]
    exact List.mem_singleton_self token

instance
    (token : Token) :
    Decidable token.IsLexical :=
  decidable_of_iff _ token.isLexical_iff.symm

theorem IsLexical.kind_ne_eof
    {token : Token}
    (h : token.IsLexical) :
    token.kind ≠ .eof := by
  cases h with
  | @single c hAlone => exact (Scan.kind_single c).2.2.2.2
  | word hRun hLetters => exact Scan.kind_word_ne rfl _
  | _ => simp [Scan.number]

theorem kind_ne_eof_of_mem_tokens
    {text : List Char}
    {token : Token}
    (hMem : token ∈ Scan.tokens text) :
    token.kind ≠ .eof :=
  ((Scan.spelling_tokens text).isLexical hMem).kind_ne_eof

end Token

end LetLang
