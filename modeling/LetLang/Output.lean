/-
  What a program writes: the text on its standard output and
  the text on its error output.

  Key definitions include:
    * `Output`
    * `Output.text`
    * `Output.line`
    * `Output.lines`
    * `Output.complaint`
-/

namespace LetLang

/- The two texts that a program writes. -/
structure Output where
  out : String
  err : String
  deriving DecidableEq, Repr

namespace Output

/- Nothing is written. -/
def empty : Output :=
  ⟨"", ""⟩

/- What is written first comes first in each text. -/
instance : Append Output :=
  ⟨fun a b => ⟨a.out ++ b.out, a.err ++ b.err⟩⟩

/- A text on the standard output. -/
def text
    (written : String) : Output :=
  ⟨written, ""⟩

/- A line on the standard output. -/
def line
    (written : String) : Output :=
  text (written ++ "\n")

/- A text on the error output. -/
def complaint
    (written : String) : Output :=
  ⟨"", written⟩

/- Lines on the standard output. -/
def lines
    (written : List String) : Output :=
  text (String.join (written.map (· ++ "\n")))

/- What is written is known from its two texts. -/
@[ext]
theorem ext
    {a b : Output}
    (hOut : a.out = b.out)
    (hErr : a.err = b.err) :
    a = b := by
  cases a
  cases b
  cases hOut
  cases hErr
  rfl

@[simp]
theorem out_append
    (a b : Output) :
    (a ++ b).out = a.out ++ b.out :=
  rfl

@[simp]
theorem err_append
    (a b : Output) :
    (a ++ b).err = a.err ++ b.err :=
  rfl

theorem lines_map {α : Type}
    (f : α → String)
    (members : List α) :
    lines (members.map f) =
      ⟨String.join
          (members.map (fun member => f member ++ "\n")),
        ""⟩ := by
  unfold lines text
  rw [List.map_map]
  rfl

end Output

end LetLang
