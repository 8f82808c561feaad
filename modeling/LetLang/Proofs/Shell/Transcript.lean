import LetLang.Shell

/-
  Transcripts: what a session comes to, line by line.

  Lines are independent of each other but for the mode. The
  mode in force at a line is that of the last line before it
  that selects one. A line writes the same whatever else was
  read, and nothing behind the input that ends a session has
  an effect. So a session is known from its lines: it is the
  greeting, and then the prompt and the answer of each line
  in order. What an answer is made of is said in full here,
  for a line with a token that contradicts its kind also:
  a header, the frames of the line, the error with its
  message and an empty line, and nothing else of the line.

  Key definitions include:
    * `Shell.inForce`
    * `Shell.Writes`
    * `Shell.Ends`
    * `Shell.Answered`
    * `Shell.Transcript`

  Main declarations:
    * `Shell.Writes.unique`
    * `Shell.loop_append`
    * `Shell.session_eq_iff_transcript`
-/

namespace LetLang

namespace Shell

------------------------------------------------------------
-- Lines as Commands
------------------------------------------------------------

/- A line without the blanks around it. -/
def stripped
    (text : String) : String :=
  String.ofList (Text.trim text.toList)

/- The mode that a line selects. -/
def selected?
    (text : String) : Option Mode :=
  if stripped text = ":tokens" then
    some .tokens
  else if stripped text = ":parse" then
    some .statements
  else
    none

/-
  The mode in force behind some lines: that of the last one
  that selects a mode, or else the mode from before.
-/
def inForce
    (mode : Mode)
    (lines : List String) : Mode :=
  (lines.filterMap selected?).getLast?.getD mode

/- A line that is shown: neither blank nor a command. -/
structure IsSource
    (text : String) : Prop where
  notBlank : stripped text ≠ ""
  notExit : stripped text ∉ [":exit", ":quit", ":q"]
  notSelection : selected? text = none

/- The first line decides the mode from before the others. -/
theorem inForce_cons
    (mode : Mode)
    (text : String)
    (lines : List String) :
    inForce mode (text :: lines) =
      inForce ((selected? text).getD mode) lines := by
  unfold inForce
  cases hSelected : selected? text with
  | none =>
      rw [List.filterMap_cons_none hSelected]
      rfl
  | some chosen =>
      rw [List.filterMap_cons_some hSelected,
        List.getLast?_cons]
      rfl

theorem eq_colon_iff
    {command full name : String}
    {word : List Char}
    (hCommand : command.toList = ':' :: word)
    (hFull : full.toList = ':' :: name.toList) :
    command = full ↔ name = String.ofList word := by
  rw [← String.toList_inj, ← String.toList_inj, hCommand,
    hFull]
  simp [eq_comm]

/- A mode is chosen by its name behind a colon. -/
theorem modeCommand?_stripped
    (text : String) :
    modeCommand? (stripped text) = selected? text := by
  unfold selected? modeCommand?
  generalize stripped text = command
  split
  · rename_i word hCommand
    have hTokens :
        command = ":tokens" ↔
          "tokens" = String.ofList word :=
      eq_colon_iff hCommand rfl
    have hParse :
        command = ":parse" ↔ "parse" = String.ofList word :=
      eq_colon_iff hCommand rfl
    simp only [hTokens, hParse]
    by_cases hFirst : "tokens" = String.ofList word
    · simp [Mode.ofName?, Mode.all, Mode.name, ← hFirst]
    · by_cases hSecond : "parse" = String.ofList word
      · simp [Mode.ofName?, Mode.all, Mode.name, ← hSecond]
      · simp [Mode.ofName?, Mode.all, Mode.name, hFirst,
          hSecond]
  · rename_i hNot
    rw [if_neg, if_neg]
    · rintro rfl
      exact hNot _ rfl
    · rintro rfl
      exact hNot _ rfl

------------------------------------------------------------
-- What a Line Writes
------------------------------------------------------------

/-
  What a line writes behind which the session goes on. It
  depends on the line and the mode in force alone; the parse
  of the line has a stream and a log of its own.
-/
inductive Writes
    (frames : Frames)
    (mode : Mode)
    (text : String) : Output → Prop where
  | blank
      (hBlank : stripped text = "") :
      Writes frames mode text ⟨"", ""⟩
  | selection
      {chosen : Mode}
      (hSelected : selected? text = some chosen) :
      Writes frames mode text
        ⟨"[mode] >>> " ++ chosen.name ++ "\n", ""⟩
  | listing
      (hSource : IsSource text)
      (hMode : mode = .tokens) :
      Writes frames mode text
        ⟨String.join
            ((Scan.tokens text.toList).map
              (fun token => token.display ++ "\n")),
          ""⟩
  | statements
      {program : Program}
      (hSource : IsSource text)
      (hMode : mode = .statements)
      (hProgram :
        (Parse.source text).program = .ok program) :
      Writes frames mode text
        ⟨String.join
            (program.map (fun stmt => stmt.render ++ "\n")),
          String.join
            ((Parse.source text).final.log.toList.map
              (fun diagnostic =>
                "[error] >>> " ++ diagnostic.error.message
                  ++ "\n"))⟩
  | report
      {token : Token}
      {reason : String}
      (hSource : IsSource text)
      (hMode : mode = .statements)
      (hFault :
        (Parse.source text).program =
          .error (.contradiction token reason)) :
      Writes frames mode text
        ⟨"[error] >>>\n"
          ++ "Traceback (most recent call last):\n"
          ++ frames text
          ++ "pygmaea.pygmaea_errors.LexicalInvariantError: "
          ++ ("could not parse " ++ Text.quoted token.literal
            ++ " as " ++ token.kind.display ++ ": "
            ++ reason)
          ++ "\n" ++ "\n",
          ""⟩

/-
  A session ends with the first of the inputs that are left,
  or because there is none. This is what stands behind the
  last prompt, and the fault that has escaped.
-/
inductive Ends
    (mode : Mode) :
    List Input → String → Option Fault → Prop where
  | inputEnd : Ends mode [] "\n" none
  | interrupt
      (later : List Input) :
      Ends mode (.interrupt :: later) "\n" none
  | exit
      {text : String}
      (hExit : stripped text ∈ [":exit", ":quit", ":q"])
      (later : List Input) :
      Ends mode (.line text :: later) "" none
  | escape
      {text : String}
      {count : Nat}
      (hSource : IsSource text)
      (hMode : mode = .statements)
      (hFault :
        (Parse.source text).program =
          .error (.digitLimit count))
      (later : List Input) :
      Ends mode (.line text :: later) ""
        (some (.digitLimit count))

/- An exit command is not blank and selects no mode. -/
theorem of_mem_exitCommands
    {text : String}
    (hExit : stripped text ∈ [":exit", ":quit", ":q"]) :
    stripped text ≠ "" ∧ selected? text = none := by
  unfold selected?
  generalize stripped text = command at hExit
  revert command
  decide

theorem selected?_of_blank
    {text : String}
    (hBlank : stripped text = "") :
    selected? text = none := by
  unfold selected?
  rw [hBlank]
  decide

/- A line that selects a mode is neither blank nor an exit. -/
theorem of_selected?
    {text : String}
    {chosen : Mode}
    (hSelected : selected? text = some chosen) :
    stripped text ≠ "" ∧
      stripped text ∉ [":exit", ":quit", ":q"] := by
  constructor
  · intro hBlank
    rw [selected?_of_blank hBlank] at hSelected
    cases hSelected
  · intro hExit
    rw [(of_mem_exitCommands hExit).2] at hSelected
    cases hSelected

/- A line is judged by its text without the blanks. -/
theorem respond_eq
    (frames : Frames)
    (mode : Mode)
    (text : String) :
    respond frames mode text =
      if stripped text = "" then
        (Output.empty, .goOn mode)
      else if stripped text ∈ [":exit", ":quit", ":q"] then
        (Output.empty, .stop)
      else
        match selected? text with
        | some chosen => (announce chosen, .goOn chosen)
        | none =>
            match answer frames mode text with
            | .ok output => (output, .goOn mode)
            | .error fault =>
                (Output.empty, .escape fault) := by
  rw [← modeCommand?_stripped]
  simp only [← List.contains_iff_mem]
  rfl

theorem respond_of_isSource
    {text : String}
    (hSource : IsSource text)
    (frames : Frames)
    (mode : Mode) :
    respond frames mode text =
      match answer frames mode text with
      | .ok output => (output, .goOn mode)
      | .error fault => (Output.empty, .escape fault) := by
  rw [respond_eq, if_neg hSource.notBlank,
    if_neg hSource.notExit, hSource.notSelection]

/- A program is shown with its errors on the other output. -/
theorem answer_of_ok
    {text : String}
    {program : Program}
    (hProgram : (Parse.source text).program = .ok program)
    (frames : Frames) :
    answer frames .statements text =
      .ok
        ⟨String.join
            (program.map (fun stmt => stmt.render ++ "\n")),
          String.join
            ((Parse.source text).final.log.toList.map
              (fun diagnostic =>
                "[error] >>> " ++ diagnostic.error.message
                  ++ "\n"))⟩ := by
  unfold answer
  simp only [Inspect.program_of_ok hProgram]
  refine congrArg Except.ok (Output.ext ?_ ?_)
  · simp [Inspect.statements, Output.lines_map,
      Inspect.complainOf, Inspect.complain,
      Output.complaint]
  · simp [Inspect.statements, Output.lines_map,
      Inspect.complainOf, Inspect.complain,
      Output.complaint, Function.comp_def]

/- A report is all that a line with a fault is answered by. -/
theorem answer_of_contradiction
    {text : String}
    {token : Token}
    {reason : String}
    (hFault :
      (Parse.source text).program =
        .error (.contradiction token reason))
    (frames : Frames) :
    answer frames .statements text =
      .ok
        ⟨"[error] >>>\n"
          ++ "Traceback (most recent call last):\n"
          ++ frames text
          ++ "pygmaea.pygmaea_errors.LexicalInvariantError: "
          ++ ("could not parse " ++ Text.quoted token.literal
            ++ " as " ++ token.kind.display ++ ": "
            ++ reason)
          ++ "\n" ++ "\n",
          ""⟩ := by
  have hMessage :
      (Fault.contradiction token reason).message =
        "could not parse " ++ Text.quoted token.literal
          ++ " as " ++ token.kind.display ++ ": "
          ++ reason :=
    rfl
  unfold answer
  simp only [Inspect.program_of_fault hFault, hMessage]
  refine congrArg Except.ok (Output.ext ?_ ?_)
  · simp [faultReport, Output.lines, Output.text,
      String.append_assoc]
  · simp [faultReport, Output.lines, Output.text]

/- A line that writes something is answered by it. -/
theorem Writes.respond_eq
    {frames : Frames}
    {mode : Mode}
    {text : String}
    {output : Output}
    (hWrites : Writes frames mode text output) :
    respond frames mode text =
      (output, .goOn ((selected? text).getD mode)) := by
  cases hWrites with
  | blank hBlank =>
      rw [selected?_of_blank hBlank, Shell.respond_eq,
        if_pos hBlank]
      rfl
  | selection hSelected =>
      rcases of_selected? hSelected with ⟨hBlank, hExit⟩
      rw [Shell.respond_eq, if_neg hBlank, if_neg hExit,
        hSelected]
      rfl
  | listing hSource hMode =>
      rw [respond_of_isSource hSource, hSource.notSelection,
        hMode, ← Output.lines_map]
      rfl
  | statements hSource hMode hProgram =>
      rw [respond_of_isSource hSource, hSource.notSelection,
        hMode, answer_of_ok hProgram]
      rfl
  | report hSource hMode hFault =>
      rw [respond_of_isSource hSource, hSource.notSelection,
        hMode, answer_of_contradiction hFault]
      rfl

/- So a line has one answer in a mode. -/
theorem Writes.unique
    {frames : Frames}
    {mode : Mode}
    {text : String}
    {output other : Output}
    (hWrites : Writes frames mode text output)
    (hOther : Writes frames mode text other) :
    output = other := by
  have hSame := hWrites.respond_eq
  rw [hOther.respond_eq] at hSame
  exact (congrArg Prod.fst hSame).symm

theorem loop_of_goOn
    {frames : Frames}
    {mode next : Mode}
    {text : String}
    {output : Output}
    (hRespond :
      respond frames mode text = (output, .goOn next))
    (inputs : List Input) :
    loop frames mode (.line text :: inputs) =
      (Output.text prompt ++ output
          ++ (loop frames next inputs).1,
        (loop frames next inputs).2) := by
  rw [loop]
  simp only [hRespond]

/- What ends a session is read behind a last prompt. -/
theorem Ends.loop_eq
    {mode : Mode}
    {inputs : List Input}
    {ending : String}
    {fault : Option Fault}
    (hEnds : Ends mode inputs ending fault)
    (frames : Frames) :
    loop frames mode inputs =
      (Output.text (prompt ++ ending), fault) := by
  cases hEnds with
  | inputEnd => rfl
  | interrupt later => rfl
  | @exit text hExit later =>
      rcases of_mem_exitCommands hExit with ⟨hBlank, -⟩
      have hRespond :
          respond frames mode text =
            (Output.empty, .stop) := by
        rw [respond_eq, if_neg hBlank, if_pos hExit]
      unfold loop
      simp only [hRespond]
      rfl
  | @escape text count hSource hMode hFault later =>
      have hRespond :
          respond frames mode text =
            (Output.empty, .escape (.digitLimit count)) := by
        rw [respond_of_isSource hSource, hMode]
        unfold answer
        rw [Inspect.program_of_fault hFault]
      unfold loop
      simp only [hRespond]
      rfl

/- Every line writes something, or it ends the session. -/
theorem writes_or_ends
    (frames : Frames)
    (mode : Mode)
    (text : String)
    (later : List Input) :
    (∃ output, Writes frames mode text output) ∨
      ∃ fault, Ends mode (.line text :: later) "" fault := by
  by_cases hBlank : stripped text = ""
  · exact Or.inl ⟨_, .blank hBlank⟩
  by_cases hExit : stripped text ∈ [":exit", ":quit", ":q"]
  · exact Or.inr ⟨_, .exit hExit later⟩
  cases hSelected : selected? text with
  | some chosen => exact Or.inl ⟨_, .selection hSelected⟩
  | none =>
      have hSource : IsSource text :=
        ⟨hBlank, hExit, hSelected⟩
      cases mode with
      | tokens => exact Or.inl ⟨_, .listing hSource rfl⟩
      | statements =>
          cases hProgram : (Parse.source text).program with
          | ok program =>
              exact
                Or.inl ⟨_, .statements hSource rfl hProgram⟩
          | error fault =>
              cases fault with
              | contradiction token reason =>
                  exact
                    Or.inl ⟨_, .report hSource rfl hProgram⟩
              | digitLimit count =>
                  exact
                    Or.inr
                      ⟨_, .escape hSource rfl hProgram later⟩

------------------------------------------------------------
-- Answers in Order
------------------------------------------------------------

/- Lines are answered one by one, in the mode at each. -/
def Answered
    (frames : Frames)
    (mode : Mode)
    (lines : List String)
    (answers : List Output) : Prop :=
  answers.length = lines.length ∧
    ∀ i text answer,
      lines[i]? = some text →
        answers[i]? = some answer →
          Writes frames (inForce mode (lines.take i)) text
            answer

theorem answered_nil
    (frames : Frames)
    (mode : Mode) :
    Answered frames mode [] [] := by
  refine ⟨rfl, ?_⟩
  intro i text answer hText
  cases hText

/-
  The first line is answered in the mode from before, and
  the others in the mode that is in force behind it.
-/
theorem answered_cons_iff
    {frames : Frames}
    {mode : Mode}
    {text : String}
    {lines : List String}
    {answers : List Output} :
    Answered frames mode (text :: lines) answers ↔
      ∃ answer later,
        answers = answer :: later ∧
          Writes frames mode text answer ∧
          Answered frames ((selected? text).getD mode) lines
            later := by
  constructor
  · rintro ⟨hLength, hWrites⟩
    cases answers with
    | nil => cases hLength
    | cons answer later =>
        refine
          ⟨answer, later, rfl, hWrites 0 text answer rfl rfl,
            Nat.succ.inj hLength, ?_⟩
        intro i other written hOther hWritten
        rw [← inForce_cons]
        exact hWrites (i + 1) other written hOther hWritten
  · rintro ⟨answer, later, rfl, hFirst, hLength, hWrites⟩
    refine ⟨congrArg Nat.succ hLength, ?_⟩
    intro i other written hOther hWritten
    cases i with
    | zero =>
        cases hOther
        cases hWritten
        exact hFirst
    | succ i =>
        rw [List.take_succ_cons, inForce_cons]
        exact hWrites i other written hOther hWritten

/- The prompts and the answers, one after the other. -/
def dialogue
    (answers : List Output) : Output :=
  ⟨String.join
      (answers.map (fun answer => prompt ++ answer.out)),
    String.join (answers.map Output.err)⟩

theorem dialogue_nil_append
    (later : Output) :
    dialogue [] ++ later = later := by
  apply Output.ext
  · exact String.empty_append
  · exact String.empty_append

theorem dialogue_cons_append
    (answer : Output)
    (answers : List Output)
    (later : Output) :
    dialogue (answer :: answers) ++ later =
      Output.text prompt ++ answer ++
        (dialogue answers ++ later) := by
  apply Output.ext
  · simp [dialogue, Output.text, String.append_assoc]
  · simp [dialogue, Output.text, String.append_assoc]

/-
  A session answers its lines and goes on behind them in the
  mode that is in force there.
-/
theorem loop_append
    {frames : Frames}
    {mode : Mode}
    {lines : List String}
    {answers : List Output}
    (hAnswered : Answered frames mode lines answers)
    (rest : List Input) :
    loop frames mode (lines.map Input.line ++ rest) =
      (dialogue answers ++
          (loop frames (inForce mode lines) rest).1,
        (loop frames (inForce mode lines) rest).2) := by
  induction lines generalizing mode answers with
  | nil =>
      have hNil : answers = [] :=
        List.eq_nil_of_length_eq_zero hAnswered.1
      subst hNil
      rw [dialogue_nil_append]
      rfl
  | cons text lines ih =>
      rcases answered_cons_iff.mp hAnswered with
        ⟨answer, later, rfl, hWrites, hLater⟩
      rw [inForce_cons, List.map_cons, List.cons_append,
        dialogue_cons_append]
      rw [loop_of_goOn hWrites.respond_eq, ih hLater]

/-
  Every session is made of lines that are answered and of
  what ends it.
-/
theorem exists_answered
    (frames : Frames)
    (mode : Mode)
    (inputs : List Input) :
    ∃ lines answers rest ending fault,
      inputs = lines.map Input.line ++ rest ∧
        Answered frames mode lines answers ∧
        Ends (inForce mode lines) rest ending fault := by
  induction inputs generalizing mode with
  | nil =>
      exact
        ⟨[], [], [], "\n", none, rfl,
          answered_nil frames mode, .inputEnd⟩
  | cons input inputs ih =>
      cases input with
      | interrupt =>
          exact
            ⟨[], [], _, "\n", none, rfl,
              answered_nil frames mode, .interrupt inputs⟩
      | line text =>
          rcases writes_or_ends frames mode text inputs with
            ⟨answer, hWrites⟩ | ⟨fault, hEnds⟩
          · rcases ih ((selected? text).getD mode) with
              ⟨lines, answers, rest, ending, fault, rfl,
                hAnswered, hEnds⟩
            rw [← inForce_cons] at hEnds
            exact
              ⟨text :: lines, answer :: answers, rest, ending,
                fault, rfl,
                answered_cons_iff.mpr
                  ⟨answer, answers, rfl, hWrites, hAnswered⟩,
                hEnds⟩
          · exact
              ⟨[], [], _, "", fault, rfl,
                answered_nil frames mode, hEnds⟩

------------------------------------------------------------
-- Transcripts
------------------------------------------------------------

/-
  A session of a user answers some lines, in a mode from the
  start, and then ends. Its output is the greeting, the
  prompt and the answer of each line, and a last prompt with
  what stands behind it; on the error output there is only
  what the answers have.
-/
def Transcript
    (frames : Frames)
    (user : Option String)
    (mode : Mode)
    (lines : List String)
    (inputs : List Input)
    (output : Output)
    (fault : Option Fault) : Prop :=
  ∃ answers rest ending,
    inputs = lines.map Input.line ++ rest ∧
      Answered frames mode lines answers ∧
      Ends (inForce mode lines) rest ending fault ∧
      output.out =
        "Hello " ++ user.getD "stranger"
          ++ "! This is the pygmaea programming language!\n"
          ++ "Feel free to type in commands\n"
          ++ String.join
            (answers.map (fun answer => ">> " ++ answer.out))
          ++ ">> " ++ ending ∧
      output.err = String.join (answers.map Output.err)

/-
  A session whose lines are answered and that ends then has
  the greeting, the dialogue and the last prompt.
-/
theorem session_append
    (user : Option String)
    {frames : Frames}
    {mode : Mode}
    {lines : List String}
    {answers : List Output}
    {rest : List Input}
    {ending : String}
    {fault : Option Fault}
    (hAnswered : Answered frames mode lines answers)
    (hEnds : Ends (inForce mode lines) rest ending fault) :
    session frames user mode
        (lines.map Input.line ++ rest) =
      (greeting user
          ++ (dialogue answers
            ++ Output.text (prompt ++ ending)),
        fault) := by
  unfold session
  rw [loop_append hAnswered, hEnds.loop_eq]

theorem out_greeting
    (user : Option String) :
    (greeting user).out =
      "Hello " ++ user.getD "stranger"
        ++ "! This is the pygmaea programming language!\n"
        ++ "Feel free to type in commands\n" := by
  simp [greeting, userName, Output.lines, Output.text,
    String.append_assoc]

/- A transcript of a session tells what it comes to. -/
theorem Transcript.session_eq
    {frames : Frames}
    {user : Option String}
    {mode : Mode}
    {lines : List String}
    {inputs : List Input}
    {output : Output}
    {fault : Option Fault}
    (hTranscript :
      Transcript frames user mode lines inputs output
        fault) :
    session frames user mode inputs = (output, fault) := by
  rcases hTranscript with
    ⟨answers, rest, ending, rfl, hAnswered, hEnds, hOut,
      hErr⟩
  rw [← out_greeting] at hOut
  rw [session_append user hAnswered hEnds]
  refine Prod.ext (Output.ext ?_ ?_) rfl
  · simp [hOut, dialogue, prompt, Output.text,
      String.append_assoc]
  · simp [hErr, dialogue, Output.text, greeting,
      Output.lines]

/- What a session comes to is what its transcript tells. -/
theorem transcript_session
    (user : Option String)
    {frames : Frames}
    {mode : Mode}
    {lines : List String}
    {answers : List Output}
    {rest : List Input}
    {ending : String}
    {fault : Option Fault}
    (hAnswered : Answered frames mode lines answers)
    (hEnds : Ends (inForce mode lines) rest ending fault) :
    Transcript frames user mode lines
      (lines.map Input.line ++ rest)
      (session frames user mode
        (lines.map Input.line ++ rest)).1
      fault := by
  rw [session_append user hAnswered hEnds]
  refine
    ⟨answers, rest, ending, rfl, hAnswered, hEnds, ?_, ?_⟩
  · rw [← out_greeting]
    simp [dialogue, prompt, Output.text,
      String.append_assoc]
  · simp [dialogue, Output.text, greeting, Output.lines]

/-
  A session is the fold of its lines. It comes to what its
  transcript says, and to nothing else: the greeting, and
  then the prompt and the own answer of each line up to the
  first input that ends it. The answer of a line depends on
  the line and on the mode in force, which is that of the
  last line before it that selects one. Whatever frames the
  line has, its report shows them and nothing else of it.
-/
theorem session_eq_iff_transcript
    (frames : Frames)
    (user : Option String)
    (mode : Mode)
    (inputs : List Input)
    (output : Output)
    (fault : Option Fault) :
    session frames user mode inputs = (output, fault) ↔
      ∃ lines,
        Transcript frames user mode lines inputs output
          fault := by
  constructor
  · intro hSession
    rcases exists_answered frames mode inputs with
      ⟨lines, answers, rest, ending, escaped, rfl, hAnswered,
        hEnds⟩
    have hTranscript :=
      transcript_session user hAnswered hEnds
    have hFault : escaped = fault :=
      congrArg Prod.snd
        (hTranscript.session_eq.symm.trans hSession)
    rw [hSession, hFault] at hTranscript
    exact ⟨lines, hTranscript⟩
  · rintro ⟨lines, hTranscript⟩
    exact hTranscript.session_eq

end Shell

end LetLang
