import LetLang.Proofs.Scan.LineEnds
import LetLang.Proofs.Text.Utf8
import LetLang.Request

/-
  Sources: a text in a file is shown like the text itself.

  What is read from a file is the text that was written to
  it, but for its line ends, which are folded. All views of
  a text are views of its tokens, and these do not depend on
  the line ends. So a request for a file has the answer of
  the request for its text, whatever the answer is.

  Main declarations:
    * `Inspect.view_eq_of_tokens_eq`
    * `File.textOf_toUTF8`
    * `Request.serve_file_eq_serve_text`
-/

namespace LetLang

------------------------------------------------------------
-- Views of Tokens
------------------------------------------------------------

/- Texts with the same tokens are parsed in the same way. -/
theorem Parse.source_eq_of_tokens_eq
    {text other : String}
    (hTokens :
      Scan.tokens text.toList = Scan.tokens other.toList) :
    Parse.source text = Parse.source other := by
  unfold Parse.source TokenStream.ofSource
    TokenStream.ofCursor Scan.Cursor.ofSource
  dsimp only
  rw [hTokens]

/- And they look the same in every view. -/
theorem Inspect.view_eq_of_tokens_eq
    {text other : String}
    (hTokens :
      Scan.tokens text.toList = Scan.tokens other.toList)
    (view : View) :
    Inspect.view view text = Inspect.view view other := by
  have hSource := Parse.source_eq_of_tokens_eq hTokens
  cases view with
  | tokens =>
      unfold Inspect.view listTokens
      dsimp only
      rw [hTokens]
  | statements =>
      unfold Inspect.view program
      dsimp only
      rw [hSource]
  | trees =>
      unfold Inspect.view program
      dsimp only
      rw [hSource]

------------------------------------------------------------
-- Files
------------------------------------------------------------

/- A file of a text is read as the text with folded lines. -/
theorem File.textOf_toUTF8
    (text : String) :
    File.textOf text.toUTF8.data.toList =
      .ok (String.ofList (Text.foldNewlines text.toList)) := by
  unfold File.textOf
  rw [Text.Utf8.decode_toUTF8]

/- Folding the line ends of a text keeps its tokens. -/
theorem Scan.tokenize_foldNewlines
    (text : String) :
    Scan.tokenize
        (String.ofList (Text.foldNewlines text.toList)) =
      Scan.tokenize text := by
  unfold Scan.tokenize
  rw [String.toList_ofList, Scan.tokens_foldNewlines]

namespace Request

/- A file is served like the text that was written to it. -/
theorem serve_file
    {path text : String}
    {files : Files}
    (hName : isSourceName path = true)
    (hFile : files path = .ok text.toUTF8.data.toList)
    (view : View)
    (others : Files) :
    Request.serve ⟨path, false, view⟩ files =
      Request.serve ⟨text, true, view⟩ others := by
  have hFound :
      files.text path =
        .ok
          (String.ofList
            (Text.foldNewlines text.toList)) := by
    unfold Files.text
    rw [hFile]
    exact File.textOf_toUTF8 text
  have hText :
      Request.text ⟨path, false, view⟩ files =
        .ok
          (String.ofList
            (Text.foldNewlines text.toList)) := by
    unfold Request.text
    dsimp only
    rw [if_neg Bool.false_ne_true, if_pos hName, hFound]
    rfl
  have hView :
      Inspect.view view
          (String.ofList (Text.foldNewlines text.toList)) =
        Inspect.view view text := by
    apply Inspect.view_eq_of_tokens_eq
    rw [String.toList_ofList, Scan.tokens_foldNewlines]
  unfold serve
  rw [hText]
  exact
    congrArg (fun shown => shown.mapError Trouble.ofFault)
      hView

/-
  File and text agree. Under the name of a source file lie
  the bytes of a text: in every view, whether there is such
  a view or not, the file is answered like the text, with
  the same output and status or the same trouble. For the
  tokens of the text are those of what is read.
-/
theorem serve_file_eq_serve_text
    (path text viewName : String)
    (files others : Files)
    (hName : isSourceName path = true)
    (hFile : files path = .ok text.toUTF8.data.toList) :
    ((named path false viewName).bind
        (fun request => request.serve files)) =
      ((named text true viewName).bind
        (fun request => request.serve others)) ∧
      Scan.tokenize
          (String.ofList (Text.foldNewlines text.toList)) =
        Scan.tokenize text := by
  refine ⟨?_, Scan.tokenize_foldNewlines text⟩
  unfold named
  cases View.ofName? viewName with
  | none => rfl
  | some view => exact serve_file hName hFile view others

/-
  A file with line ends of all three sorts, one of them
  between two signs that would be one without it.
-/
theorem serve_file_lineEnds :
    isSourceName "a.pgm" = true ∧
      (named "a.pgm" false "tokens").bind
          (fun request =>
            request.serve
              (fun _ =>
                .ok "é\n=\r=\r\n".toUTF8.data.toList)) =
        .ok
          (Output.lines
            ["[Type:Illegal, Literal: é]",
              "[Type:Assign, Literal: =]",
              "[Type:Assign, Literal: =]"], 0) := by
  have hName : isSourceName "a.pgm" = true := by decide
  have hTokens :
      Scan.tokens "é\n=\r=\r\n".toList =
        [⟨.illegal, "é"⟩, ⟨.assign, "="⟩, ⟨.assign, "="⟩] := by
    decide +kernel
  refine ⟨hName, ?_⟩
  refine
    (serve_file_eq_serve_text "a.pgm" "é\n=\r=\r\n" "tokens"
      (fun _ => .ok "é\n=\r=\r\n".toUTF8.data.toList)
      (fun _ => .error .nulInPath) hName rfl).1.trans ?_
  have hView :
      Inspect.view .tokens "é\n=\r=\r\n" =
        .ok
          (Output.lines
            ["[Type:Illegal, Literal: é]",
              "[Type:Assign, Literal: =]",
              "[Type:Assign, Literal: =]"], 0) := by
    unfold Inspect.view Inspect.listTokens
    rw [hTokens]
    rfl
  exact
    congrArg (fun shown => shown.mapError Trouble.ofFault)
      hView

end Request

end LetLang
