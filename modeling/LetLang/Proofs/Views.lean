import LetLang.Proofs.Json.Layout
import LetLang.Proofs.Parse.Consumption
import LetLang.Proofs.Tree.Record
import LetLang.Request

/-
  The views of tokens and of trees lose nothing.

  A token is listed on one line, from which its kind and its
  text can be read: no kind is printed with a comma. So the
  listing of a text tells its tokens. The tokens of a parsed
  program were all scanned, so they are known from the texts
  that the records keep, and the records are known from what
  is written of them.

  Main declarations:
    * `Token.display_inj`
    * `Parse.isLexical_of_source`
    * `Inspect.out_listTokens_inj`
    * `Inspect.out_trees_inj`
    * `Request.serve_out_eq_iff`
-/

namespace LetLang

------------------------------------------------------------
-- Listed Tokens
------------------------------------------------------------

namespace Token

theorem Kind.not_mem_display
    (kind : Kind) :
    ',' ∉ kind.display.toList ∧
      '\n' ∉ kind.display.toList := by
  cases kind <;> decide

/- A token is known from its line. -/
theorem display_inj
    {a b : Token}
    (h : a.display = b.display) :
    a = b := by
  have hSplit (token : Token) :
      token.display.toList =
        "[Type:".toList ++
          (token.kind.display.toList ++
            ',' :: (" Literal: ".toList ++
              (token.literal.toList ++ [']']))) := by
    simp [display]
  have hList := congrArg String.toList h
  rw [hSplit a, hSplit b] at hList
  rcases
    Text.append_cons_inj a.kind.not_mem_display.1
      b.kind.not_mem_display.1
      (List.append_cancel_left hList) with ⟨hKind, hRest⟩
  have hLiteral :=
    List.append_cancel_right (List.append_cancel_left hRest)
  cases a
  cases b
  cases Kind.display_inj (String.toList_inj.mp hKind)
  cases String.toList_inj.mp hLiteral
  rfl

/- A scanned token is listed on one line. -/
theorem IsLexical.not_mem_display
    {token : Token}
    (hLexical : token.IsLexical) :
    '\n' ∉ token.display.toList := by
  have hLiteral : '\n' ∉ token.literal.toList := by
    intro hMem
    have hSpace := hLexical.isSpace_eq_false hMem
    exact absurd hSpace (by decide)
  simp [display, hLiteral, token.kind.not_mem_display.2]

end Token

/- The tokens of a text are known from their listing. -/
theorem Inspect.out_listTokens_inj
    {text other : String}
    (h : (listTokens text).out = (listTokens other).out) :
    Scan.tokens text.toList = Scan.tokens other.toList := by
  have hLines (source : String) :
      ∀ line ∈
        (Scan.tokens source.toList).map Token.display,
        '\n' ∉ line.toList := by
    intro line hMem
    rcases List.mem_map.mp hMem with ⟨token, hToken, rfl⟩
    have hLexical :=
      (Scan.spelling_tokens source.toList).isLexical hToken
    exact hLexical.not_mem_display
  have hDisplays :=
    Text.join_lines_inj (hLines text) (hLines other) h
  exact
    (List.map_inj_right
      (fun _ _ hSame => Token.display_inj hSame)).mp
      hDisplays

------------------------------------------------------------
-- Parsed Programs
------------------------------------------------------------

namespace Parse

/- The places of a stream hold scanned tokens only. -/
def Scanned
    (stream : TokenStream) : Prop :=
  ∀ token, some token ∈ stream.rest → token.IsLexical

theorem Scanned.of_suffix
    {stream after : TokenStream}
    (h : Scanned stream)
    (hRest : after.rest <:+ stream.rest) :
    Scanned after := by
  intro token hMem
  exact h token (hRest.mem hMem)

theorem scanned_ofSource
    (text : String) :
    Scanned (TokenStream.ofSource text) := by
  intro token hMem
  rcases List.mem_map.mp hMem with ⟨found, hFound, hSame⟩
  cases hSame
  exact (Scan.spelling_tokens text.toList).isLexical hFound

/- A statement has tokens that were before its attempt. -/
theorem isLexical_of_statement
    {state after : State}
    {stmt : Stmt}
    (hAttempt : statement state = (.done stmt, after))
    (hScanned : Scanned state.stream) :
    stmt.toNode.IsLexical := by
  rcases reads_of_statement hAttempt with
    ⟨hCanonical, sign, middle, -, hReads, -, -⟩
  apply Stmt.isLexical_toNode hCanonical
  intro token hMem
  apply hScanned
  rw [hReads.rest_eq]
  exact
    List.mem_append_left _ (List.mem_map_of_mem hMem)

/- So all statements of a parse have scanned tokens. -/
theorem Course.isLexical
    {state final : State}
    {result : Except Fault Program}
    (hCourse : Course state result final)
    (hScanned : Scanned state.stream)
    {program : Program}
    (hResult : result = .ok program) :
    ∀ stmt ∈ program, stmt.toNode.IsLexical := by
  induction hCourse generalizing program with
  | finished hFinished =>
      cases hResult
      exact List.forall_mem_nil _
  | @done state after final stmt later hUnfinished
      hAttempt hLater ih =>
      cases hResult
      have hLeft :=
        (TokenStream.advance_suffix _).trans
          (suffix_statement state)
      rw [hAttempt] at hLeft
      exact
        List.forall_mem_cons.mpr
          ⟨isLexical_of_statement hAttempt hScanned,
            ih (hScanned.of_suffix hLeft) rfl⟩
  | doneFatal hUnfinished hAttempt hLater ih =>
      cases hResult
  | @failed state after final raised result hUnfinished
      hAttempt hLater ih =>
      have hLeft :=
        (TokenStream.advance_suffix _).trans
          (suffix_statement state)
      rw [hAttempt] at hLeft
      exact ih (hScanned.of_suffix hLeft) hResult
  | fatal hUnfinished hAttempt => cases hResult

/- A parsed source consists of scanned tokens. -/
theorem isLexical_of_source
    {text : String}
    {program : Program}
    (hProgram : (source text).program = .ok program) :
    ∀ stmt ∈ program, stmt.toNode.IsLexical :=
  (course_program
    (State.ofStream (TokenStream.ofSource text))).isLexical
      (scanned_ofSource text) hProgram

end Parse

------------------------------------------------------------
-- Written Trees
------------------------------------------------------------

namespace Inspect

/- Parsed programs are known from what is written of them. -/
theorem out_trees_inj
    {text other : String}
    {first second : Program}
    (hFirst : (Parse.source text).program = .ok first)
    (hSecond : (Parse.source other).program = .ok second)
    (h : (trees first).out = (trees second).out) :
    first = second := by
  have hPretty :
      (Program.record first).pretty =
        (Program.record second).pretty :=
    (String.append_left_inj "\n").mp h
  exact
    Program.record_inj (Parse.isLexical_of_source hFirst)
      (Parse.isLexical_of_source hSecond)
      (Json.pretty_inj hPretty)

/- What the view of the trees of a parsed text writes. -/
theorem view_trees
    {text : String}
    {program : Program}
    (hProgram : (Parse.source text).program = .ok program) :
    view .trees text =
      .ok
        (trees program
            ++ complainOf (Parse.source text).final.log,
          statusOf (Parse.source text).final.log) := by
  unfold view
  dsimp only
  rw [program_of_ok hProgram]
  rfl

end Inspect

------------------------------------------------------------
-- Requests
------------------------------------------------------------

namespace Request

/-
  The views of tokens and of trees are faithful. Two texts
  have the same listing exactly if they have the same
  tokens; and two texts that can be parsed have the same
  trees on the standard output exactly if they are parsed to
  the same program, with the same tokens in every node.
-/
theorem serve_out_eq_iff
    (first second : String)
    (files : Files) :
    (∃ a b,
      serve ⟨first, true, .tokens⟩ files = .ok (a, 0) ∧
        serve ⟨second, true, .tokens⟩ files = .ok (b, 0) ∧
        (a.out = b.out ↔
          Scan.tokenize first = Scan.tokenize second)) ∧
      ∀ p q,
        (Parse.source first).program = .ok p →
          (Parse.source second).program = .ok q →
            ∃ a b s t,
              serve ⟨first, true, .trees⟩ files =
                  .ok (a, s) ∧
                serve ⟨second, true, .trees⟩ files =
                  .ok (b, t) ∧
                (a.out = b.out ↔ p = q) := by
  constructor
  · refine
      ⟨Inspect.listTokens first, Inspect.listTokens second,
        rfl, rfl, ?_⟩
    unfold Scan.tokenize
    rw [List.append_left_inj]
    constructor
    · exact Inspect.out_listTokens_inj
    · intro hTokens
      unfold Inspect.listTokens
      rw [hTokens]
  · intro p q hFirst hSecond
    have hServe
        {text : String}
        {program : Program}
        (hProgram :
          (Parse.source text).program = .ok program) :
        serve ⟨text, true, .trees⟩ files =
          .ok
            (Inspect.trees program
                ++ Inspect.complainOf
                  (Parse.source text).final.log,
              Inspect.statusOf
                (Parse.source text).final.log) :=
      congrArg (fun shown => shown.mapError Trouble.ofFault)
        (Inspect.view_trees hProgram)
    refine
      ⟨_, _, _, _, hServe hFirst, hServe hSecond, ?_⟩
    rw [Output.out_append, Output.out_append]
    have hNone (log : Log) :
        (Inspect.complainOf log).out = "" :=
      rfl
    rw [hNone, hNone, String.append_empty,
      String.append_empty]
    constructor
    · exact Inspect.out_trees_inj hFirst hSecond
    · rintro rfl
      rfl

/-
  Two numerals of one number: the trees have the same value,
  but keep the texts of their tokens.
-/
theorem serve_out_ne_of_numerals :
    (Parse.source "01").program =
        .ok [.exprStmt ⟨.int, "01"⟩ (.int ⟨.int, "01"⟩ 1)] ∧
      (Parse.source "1").program =
        .ok [.exprStmt ⟨.int, "1"⟩ (.int ⟨.int, "1"⟩ 1)] ∧
      ∃ a b s t,
        serve ⟨"01", true, .trees⟩
            (fun _ => .error .nulInPath) = .ok (a, s) ∧
          serve ⟨"1", true, .trees⟩
            (fun _ => .error .nulInPath) = .ok (b, t) ∧
          a.out ≠ b.out := by
  have hFirst :
      (Parse.source "01").program =
        .ok [.exprStmt ⟨.int, "01"⟩ (.int ⟨.int, "01"⟩ 1)] :=
    Parse.eq_ok_of_toOption (by decide +kernel)
  have hSecond :
      (Parse.source "1").program =
        .ok [.exprStmt ⟨.int, "1"⟩ (.int ⟨.int, "1"⟩ 1)] :=
    Parse.eq_ok_of_toOption (by decide +kernel)
  rcases
    (serve_out_eq_iff "01" "1"
      (fun _ => .error .nulInPath)).2 _ _ hFirst hSecond with
    ⟨a, b, s, t, hA, hB, hOut⟩
  refine
    ⟨hFirst, hSecond, a, b, s, t, hA, hB, mt hOut.mp ?_⟩
  decide

end Request

end LetLang
