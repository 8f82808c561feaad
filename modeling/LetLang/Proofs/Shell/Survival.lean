import LetLang.Proofs.Parse.Fatal
import LetLang.Proofs.Scan.Spelling
import LetLang.Proofs.Shell.Transcript

/-
  Survival: sessions that answer every line they are given.

  A session should go on until it is told to stop, by an
  exit command, by an interrupt, or by the end of the input.
  A line with an integer that cannot be represented is
  reported, and the next line is read. There is one
  exception: the report is on texts that contradict their
  kind, and a numeral with too many digits to be converted
  does not count as one. Its fault escapes and ends the
  session.

  Key definitions include:
    * `Shell.heard`
    * `Shell.Survives`

  Main declarations:
    * `Parse.program_of_numeral`
    * `Shell.survives_iff_forall_ne`
    * `Shell.session_survives_iff`
-/

------------------------------------------------------------
-- Numerals that Are Too Long
------------------------------------------------------------

namespace LetLang

/- Digits that are too many to be converted are counted. -/
theorem Token.integer_of_maxDigits_lt
    {run : List Char}
    (hDigits : ∀ c ∈ run, Text.isDigit c = true)
    (hLength : Numeral.maxDigits < run.length) :
    (Scan.number run).integer =
      .error (.digitLimit run.length) := by
  have hRun : run ≠ [] := by
    rintro rfl
    cases hLength
  have hIsDigits :
      Text.isDigits (String.ofList run) = true := by
    rw [Text.isDigits_iff, String.toList_ofList]
    exact ⟨hRun, hDigits⟩
  unfold Token.integer Numeral.read Scan.number
  dsimp only
  rw [if_pos hIsDigits, String.length_ofList,
    if_neg (Nat.not_le.mpr hLength)]
  rfl

/- Only such digits have the fault of being too many. -/
theorem Token.maxDigits_lt_of_integer
    {token : Token}
    {count : Nat}
    (hFault : token.integer = .error (.digitLimit count)) :
    Numeral.maxDigits < token.literal.length := by
  unfold Token.integer Numeral.read at hFault
  split at hFault
  · cases hFault
  · rename_i refusal hRefusal
    split at hRefusal
    · split at hRefusal
      · split at hRefusal
        · cases hRefusal
        · cases hRefusal
          cases hFault
      · rename_i hLength
        exact Nat.not_le.mp hLength
    · cases hRefusal
      cases hFault

namespace Parse

/- An integer with a fault ends a parse that comes to it. -/
theorem program_of_fault
    {state : State}
    {token : Token}
    {fault : Fault}
    (hCurrent : state.stream.current = some token)
    (hKind : token.kind = .int)
    (hFault : token.integer = .error fault) :
    program state = (.error fault, state.advance) := by
  have hLeaf : leaf token = .fatal fault := by
    unfold leaf
    rw [hKind, hFault]
  have hOperand :
      Trace (.operand token) state.stream.advance
        (.fatal fault) state.stream.advance := by
    rw [← hLeaf]
    apply Trace.leaf
    rw [hKind]
    rfl
  have hExpression :
      state.expression .lowest =
        (.fatal fault, state.advance) :=
    (Trace.expressionFatal hCurrent hOperand).expression_eq
  have hIsNot
      {kind : Token.Kind}
      (hOther : kind ≠ .int) :
      state.stream.currentIs kind = false := by
    simp [TokenStream.currentIs, hCurrent, hKind, hOther.symm]
  have hOpening :
      Opening state .expression
        (fun expr => .exprStmt expr.first expr) state :=
    .bare (hIsNot (by decide)) (hIsNot (by decide))
  apply program_of_fatal
  · simp [State.isFinished, hCurrent, hKind]
  · exact (StatementTrace.fatal hOpening hExpression).statement_eq

/- The parse of too many digits ends at once. -/
theorem program_of_numeral
    {run : List Char}
    (hDigits : ∀ c ∈ run, Text.isDigit c = true)
    (hLength : Numeral.maxDigits < run.length) :
    (source (String.ofList run)).program =
      .error (.digitLimit run.length) := by
  have hRun : run ≠ [] := by
    rintro rfl
    cases hLength
  have hTokens : Scan.tokens run = [Scan.number run] := by
    have hLexical : (Scan.number run).IsLexical :=
      .number hRun hDigits
    have hOwn := (Token.isLexical_iff _).mp hLexical
    rw [← hOwn]
    exact congrArg Scan.tokens String.toList_ofList.symm
  have hCurrent :
      (TokenStream.ofSource (String.ofList run)).current =
        some (Scan.number run) := by
    unfold TokenStream.ofSource TokenStream.ofCursor
      Scan.Cursor.ofSource
    dsimp only
    rw [String.toList_ofList, hTokens]
    rfl
  unfold source Parse.run
  rw [program_of_fault hCurrent rfl
    (Token.integer_of_maxDigits_lt hDigits hLength)]

end Parse

namespace Shell

------------------------------------------------------------
-- Lines That Should Be Answered
------------------------------------------------------------

/-
  The lines that a session is given before it is told to
  stop, by an exit command or otherwise.
-/
def heard : List Input → List String
  | [] => []
  | .interrupt :: _ => []
  | .line text :: inputs =>
      if stripped text ∈ [":exit", ":quit", ":q"] then
        []
      else
        text :: heard inputs

/-
  No fault escapes from a session, and every line that it is
  given before it is told to stop is answered.
-/
def Survives
    (frames : Frames)
    (user : Option String)
    (mode : Mode)
    (inputs : List Input) : Prop :=
  ∃ output,
    session frames user mode inputs = (output, none) ∧
      Transcript frames user mode (heard inputs) inputs
        output none

theorem Writes.notExit
    {frames : Frames}
    {mode : Mode}
    {text : String}
    {output : Output}
    (hWrites : Writes frames mode text output) :
    stripped text ∉ [":exit", ":quit", ":q"] := by
  cases hWrites with
  | blank hBlank =>
      intro hExit
      exact (of_mem_exitCommands hExit).1 hBlank
  | selection hSelected => exact (of_selected? hSelected).2
  | listing hSource hMode => exact hSource.notExit
  | statements hSource hMode hProgram =>
      exact hSource.notExit
  | report hSource hMode hFault => exact hSource.notExit

/- A line that is answered has no numeral too long. -/
theorem Writes.program_ne
    {frames : Frames}
    {text : String}
    {output : Output}
    (hWrites : Writes frames .statements text output)
    (hSource : IsSource text)
    (count : Nat) :
    (Parse.source text).program ≠
      .error (.digitLimit count) := by
  intro hFault
  cases hWrites with
  | blank hBlank => exact hSource.notBlank hBlank
  | selection hSelected =>
      rw [hSource.notSelection] at hSelected
      cases hSelected
  | listing hOwn hMode => cases hMode
  | statements hOwn hMode hProgram =>
      rw [hFault] at hProgram
      cases hProgram
  | report hOwn hMode hOther =>
      rw [hFault] at hOther
      cases hOther

/- Lines that are answered are heard before all others. -/
theorem Answered.heard_append
    {frames : Frames}
    {mode : Mode}
    {lines : List String}
    {answers : List Output}
    (hAnswered : Answered frames mode lines answers)
    (rest : List Input) :
    heard (lines.map Input.line ++ rest) =
      lines ++ heard rest := by
  induction lines generalizing mode answers with
  | nil => rfl
  | cons text lines ih =>
      rcases answered_cons_iff.mp hAnswered with
        ⟨answer, later, -, hWrites, hLater⟩
      rw [List.map_cons, List.cons_append, heard,
        if_neg hWrites.notExit, ih hLater]
      rfl

/- Where a session is told to stop, nothing more is heard. -/
theorem Ends.heard_eq
    {mode : Mode}
    {rest : List Input}
    {ending : String}
    (hEnds : Ends mode rest ending none) :
    heard rest = [] := by
  cases hEnds with
  | inputEnd => rfl
  | interrupt later => rfl
  | exit hExit later => rw [heard, if_pos hExit]

/- A line that is answered writes in the mode at it. -/
theorem Answered.exists_writes
    {frames : Frames}
    {mode : Mode}
    {before after : List String}
    {text : String}
    {answers : List Output}
    (hAnswered :
      Answered frames mode (before ++ text :: after)
        answers) :
    ∃ answer,
      Writes frames (inForce mode before) text answer := by
  induction before generalizing mode answers with
  | nil =>
      rcases answered_cons_iff.mp hAnswered with
        ⟨answer, later, -, hWrites, -⟩
      exact ⟨answer, hWrites⟩
  | cons first before ih =>
      rcases answered_cons_iff.mp hAnswered with
        ⟨answer, later, -, -, hLater⟩
      rw [inForce_cons]
      exact ih hLater

------------------------------------------------------------
-- Surviving
------------------------------------------------------------

/-
  A session survives exactly if no line that should be shown
  as statements has a numeral with too many digits in its
  way. Any other line is answered.
-/
theorem survives_iff_forall_ne
    {frames : Frames}
    {user : Option String}
    {mode : Mode}
    {inputs : List Input} :
    Survives frames user mode inputs ↔
      ∀ before text after,
        heard inputs = before ++ text :: after →
          inForce mode before = .statements →
            IsSource text →
              ∀ count,
                (Parse.source text).program ≠
                  .error (.digitLimit count) := by
  constructor
  · rintro ⟨output, -, answers, rest, ending, -, hAnswered,
      -⟩ before text after hHeard hMode hSource
    rw [hHeard] at hAnswered
    rcases hAnswered.exists_writes with ⟨answer, hWrites⟩
    rw [hMode] at hWrites
    exact hWrites.program_ne hSource
  · intro hNone
    rcases exists_answered frames mode inputs with
      ⟨lines, answers, rest, ending, fault, rfl, hAnswered,
        hEnds⟩
    have hHeard := hAnswered.heard_append rest
    cases fault with
    | none =>
        have hTranscript :=
          transcript_session user hAnswered hEnds
        rw [hEnds.heard_eq, List.append_nil] at hHeard
        refine ⟨_, hTranscript.session_eq, ?_⟩
        rw [hHeard]
        exact hTranscript
    | some fault =>
        cases hEnds with
        | escape hSource hMode hFault later =>
            rw [heard, if_neg hSource.notExit] at hHeard
            exact
              (hNone lines _ _ hHeard hMode hSource _
                hFault).elim

/- A line without long integers has no numeral too long. -/
theorem program_ne_of_length_le
    {text : String}
    (hShort :
      ∀ token ∈ Scan.tokens text.toList,
        token.kind = .int →
          token.literal.length ≤ Numeral.maxDigits)
    (count : Nat) :
    (Parse.source text).program ≠
      .error (.digitLimit count) := by
  intro hFault
  rcases Parse.exists_leads_of_run hFault with
    ⟨rounds, last, token, hLeads, -, hKind, hInteger, hLast⟩
  rcases hLeads.later.passedLast hLast with ⟨i, hToken, -⟩
  have hEof : token.kind ≠ .eof := by
    rw [hKind]
    decide
  have hListed :=
    TokenStream.mem_rest_of_get? hToken hEof
  have hMem : token ∈ Scan.tokens text.toList := by
    simpa [Parse.State.ofStream, TokenStream.ofSource,
      TokenStream.ofCursor, Scan.Cursor.ofSource]
      using hListed
  exact
    absurd (hShort token hMem hKind)
      (Nat.not_le.mpr (Token.maxDigits_lt_of_integer hInteger))

/-
  A session survives exactly if no line that it should show
  as statements is parsed up to a numeral with more digits
  than are converted. So it survives if no line has such a
  numeral, whatever else is wrong with its lines.
-/
theorem session_survives_iff
    (frames : Frames)
    (user : Option String)
    (mode : Mode)
    (inputs : List Input) :
    (Survives frames user mode inputs ↔
      ∀ before text after,
        heard inputs = before ++ text :: after →
          inForce mode before = .statements →
            IsSource text →
              ∀ count,
                (Parse.source text).program ≠
                  .error (.digitLimit count)) ∧
      ((∀ text ∈ heard inputs,
        ∀ token ∈ Scan.tokens text.toList,
          token.kind = .int →
            token.literal.length ≤ Numeral.maxDigits) →
        Survives frames user mode inputs) := by
  refine ⟨survives_iff_forall_ne, ?_⟩
  intro hShort
  apply survives_iff_forall_ne.mpr
  intro before text after hHeard hMode hSource
  apply program_ne_of_length_le
  apply hShort
  rw [hHeard]
  exact List.mem_append_right _ (List.mem_cons_self ..)

/-
  An integer that does not fit is reported, and the line
  behind it is answered.
-/
theorem session_survives_report :
    Survives (fun _ => "  in the loop\n") (some "tester")
        .statements
        [.line "9223372036854775808", .line "7",
          .line ":q", .line "8"] ∧
      heard
          [.line "9223372036854775808", .line "7",
            .line ":q", .line "8"] =
        ["9223372036854775808", "7"] := by
  have hHeard :
      heard
          [.line "9223372036854775808", .line "7",
            .line ":q", .line "8"] =
        ["9223372036854775808", "7"] := by
    decide +kernel
  refine ⟨(session_survives_iff _ _ _ _).2 ?_, hHeard⟩
  rw [hHeard]
  decide +kernel

------------------------------------------------------------
-- A Session that Does Not Survive
------------------------------------------------------------

/- A text without blanks at its ends is not trimmed. -/
theorem trim_of_not_isBlank
    {text : List Char}
    (hFirst : ∀ c ∈ text.head?, Text.isBlank c = false)
    (hLast : ∀ c ∈ text.getLast?, Text.isBlank c = false) :
    Text.trim text = text := by
  have hDrop
      {run : List Char}
      (hHead : ∀ c ∈ run.head?, Text.isBlank c = false) :
      run.dropWhile Text.isBlank = run := by
    cases run with
    | nil => rfl
    | cons c run =>
        exact
          List.dropWhile_cons_of_neg (by simp [hHead c rfl])
  unfold Text.trim
  rw [hDrop hFirst, hDrop, List.reverse_reverse]
  rw [List.head?_reverse]
  exact hLast

/- A line that starts with no colon is no command. -/
theorem isSource_of_head?
    {text : String}
    {c : Char}
    (hHead : (stripped text).toList.head? = some c)
    (hColon : c ≠ ':') :
    IsSource text := by
  have hNe
      {command : String}
      (hCommand : command.toList.head? ∈ [none, some ':']) :
      stripped text ≠ command := by
    rintro rfl
    rw [hHead] at hCommand
    simp [hColon] at hCommand
  constructor
  · exact hNe (by decide)
  · simp only [List.mem_cons, List.not_mem_nil, or_false,
      not_or]
    exact
      ⟨hNe (by decide), hNe (by decide), hNe (by decide)⟩
  · unfold selected?
    rw [if_neg (hNe (by decide)), if_neg (hNe (by decide))]

/-
  A line of more digits than are converted ends the session:
  the line behind it is not answered.
-/
theorem not_survives_digits :
    session Frames.none (some "tester") .statements
        [.line (String.ofList (List.replicate 4301 '1')),
          .line "7"] =
      (greeting (some "tester") ++ Output.text prompt,
        some (.digitLimit 4301)) ∧
      ¬ Survives Frames.none (some "tester") .statements
        [.line (String.ofList (List.replicate 4301 '1')),
          .line "7"] := by
  have hBlank :
      ∀ c ∈ List.replicate 4301 '1',
        Text.isBlank c = false := by
    intro c hMem
    rw [List.eq_of_mem_replicate hMem]
    decide
  have hDigits :
      ∀ c ∈ List.replicate 4301 '1',
        Text.isDigit c = true := by
    intro c hMem
    rw [List.eq_of_mem_replicate hMem]
    decide
  have hStripped :
      stripped (String.ofList (List.replicate 4301 '1')) =
        String.ofList (List.replicate 4301 '1') := by
    unfold stripped
    rw [String.toList_ofList, trim_of_not_isBlank]
    · exact fun c hMem =>
        hBlank c (List.mem_of_mem_head? hMem)
    · exact fun c hMem =>
        hBlank c (List.mem_of_mem_getLast? hMem)
  have hSource :
      IsSource
        (String.ofList (List.replicate 4301 '1')) := by
    apply isSource_of_head? (c := '1') _ (by decide)
    rw [hStripped, String.toList_ofList]
    rfl
  have hFault :
      (Parse.source
        (String.ofList (List.replicate 4301 '1'))).program =
          .error (.digitLimit 4301) := by
    have hProgram := Parse.program_of_numeral hDigits
    rw [List.length_replicate] at hProgram
    exact hProgram (by decide)
  generalize
    String.ofList (List.replicate 4301 '1') = text at *
  constructor
  · have hSession :=
      session_append (some "tester")
        (answered_nil Frames.none .statements)
        (.escape hSource rfl hFault [.line "7"])
    rw [dialogue_nil_append] at hSession
    exact hSession
  · intro hSurvives
    refine
      survives_iff_forall_ne.mp hSurvives [] _ ["7"] ?_ rfl
        hSource 4301 hFault
    rw [heard, if_neg hSource.notExit]
    rfl

end Shell

end LetLang
