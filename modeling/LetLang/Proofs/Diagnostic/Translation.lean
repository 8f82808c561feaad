import LetLang.Diagnostic.Log

/-
  Translations of errors, and what becomes of a log.

  A translation changes what the errors of a log say. Their
  places stay, and so do the places of their causes. It does
  not matter whether the errors of a failed expression are
  translated before or after they are recorded, if it leaves
  the errors of operators alone.

  Key definitions include:
    * `Diagnostic.translate`
    * `Log.translate`

  Main declarations:
    * `Failure.raise_translate`
-/

namespace LetLang

namespace Diagnostic

/- Translate an error; its cause is kept. -/
def translate
    (change : ParseError → ParseError)
    (diagnostic : Diagnostic) : Diagnostic :=
  ⟨change diagnostic.error, diagnostic.cause⟩

end Diagnostic

namespace Log

/- Translate every error of a log. -/
def translate
    (change : ParseError → ParseError)
    (log : Log) : Log :=
  log.map (Diagnostic.translate change)

variable
  (change : ParseError → ParseError)

@[simp]
theorem size_translate
    (log : Log) :
    (log.translate change).size = log.size :=
  Array.size_map

@[simp]
theorem translate_empty :
    translate change #[] = #[] :=
  Array.map_empty

@[simp]
theorem translate_push
    (log : Log)
    (diagnostic : Diagnostic) :
    translate change (log.push diagnostic) =
      (log.translate change).push
        (diagnostic.translate change) :=
  Array.map_push

@[simp]
theorem translate_id
    (log : Log) :
    log.translate id = log :=
  Array.map_id log

/- An error that cites another is translated with it. -/
theorem citing_translate
    {error other : ParseError}
    (hError : change error = other)
    (log : Log)
    (cause : Diagnostic) :
    (log.translate change).citing
        (cause.translate change) other =
      ((log.citing cause error).1.translate change,
        (log.citing cause error).2.translate change) := by
  simp [citing, Diagnostic.translate, hError]

end Log

/-
  A failure is raised in translation, if the translation of
  its obstacle is known and operators are left alone.
-/
theorem Failure.raise_translate
    {change : ParseError → ParseError}
    {obstacle other : Obstacle}
    (hObstacle : change obstacle.error = other.error)
    (hForms :
      ∀ form,
        change (.operandFailed form) = .operandFailed form)
    (waiting : List OperatorForm)
    (log : Log) :
    (Failure.mk other waiting).raise (log.translate change) =
      (((Failure.mk obstacle waiting).raise log).1.translate
          change,
        ((Failure.mk obstacle waiting).raise log).2.translate
          change) := by
  induction waiting with
  | nil =>
      simp [raise_nil, Diagnostic.translate, Diagnostic.root,
        hObstacle]
  | cons form waiting ih =>
      have hUnder := raise_under ⟨obstacle, waiting⟩ form log
      have hOther :=
        raise_under ⟨other, waiting⟩ form
          (log.translate change)
      unfold under at hUnder hOther
      rw [hUnder, hOther, ih]
      exact Log.citing_translate change (hForms form) _ _

end LetLang
