/-!
# Doubled quotes

Inside a delimited text a double quote is written twice. Reading takes the quotes pairwise from
left to right and keeps one that stands alone, so that it gives an answer for every text.

* `double`: the written form of a text between delimiters;
* `undouble`: the text that a written form stands for, with `undouble_double` as the law that
  ties the two;
* `delimited?`: what stands between the delimiters, if a text has both.
-/

namespace LabelCheck.Text

/-- Write every double quote twice. -/
def double : List Char → List Char
  | [] => []
  | c :: rest => if c = '"' then '"' :: '"' :: double rest else c :: double rest

/-- Read every pair of double quotes as one; a quote without a partner stands for itself. -/
def undouble : List Char → List Char
  | [] => []
  | [c] => [c]
  | c :: d :: rest =>
    if c = '"' ∧ d = '"' then '"' :: undouble rest else c :: undouble (d :: rest)

/-- What stands between a leading and a trailing double quote, when these are two characters. -/
def delimited? : List Char → Option (List Char)
  | [] => none
  | c :: rest => if c = '"' ∧ rest.getLast? = some '"' then some rest.dropLast else none

@[simp] theorem double_nil : double [] = [] := rfl

theorem double_cons (c : Char) (rest : List Char) :
    double (c :: rest) = if c = '"' then '"' :: '"' :: double rest else c :: double rest := rfl

/-- A text that does not open with a quote is read past its first character. -/
theorem undouble_cons {c : Char} (hc : c ≠ '"') (rest : List Char) :
    undouble (c :: rest) = c :: undouble rest := by
  cases rest with
  | nil => simp [undouble]
  | cons d rest => rw [undouble, if_neg (fun h => hc h.1)]

/-- Reading undoes writing. -/
@[simp] theorem undouble_double (cs : List Char) : undouble (double cs) = cs := by
  induction cs with
  | nil => simp [undouble]
  | cons c rest ih =>
    by_cases hc : c = '"'
    · simp [double_cons, hc, undouble, ih]
    · rw [double_cons, if_neg hc, undouble_cons hc, ih]

example : undouble "a\"\"b\"c".toList = "a\"b\"c".toList := by decide

example : delimited? "\"".toList = none := by decide

end LabelCheck.Text
