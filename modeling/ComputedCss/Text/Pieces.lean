/-!
# Plain cutting of text

`pieces` cuts a text at every separator, wherever it stands.

* `length_pieces`: there is one piece more than there are separators.
-/

namespace ComputedCss.Text

/-- The pieces between the separators of a text: the first piece and the others. -/
def piecesFrom (isSeparator : Char → Bool) : List Char → List Char × List (List Char)
  | [] => ([], [])
  | c :: rest =>
    let (first, others) := piecesFrom isSeparator rest
    if isSeparator c then ([], first :: others) else (c :: first, others)

/-- The pieces between the separators of a text. -/
def pieces (isSeparator : Char → Bool) (text : List Char) : List (List Char) :=
  let (first, others) := piecesFrom isSeparator text
  first :: others

theorem length_pieces (isSeparator : Char → Bool) (text : List Char) :
    (pieces isSeparator text).length = text.countP isSeparator + 1 := by
  simp only [pieces, List.length_cons, Nat.add_right_cancel_iff]
  induction text with
  | nil => rfl
  | cons c rest ih =>
    simp only [piecesFrom]
    split <;> simp_all

end ComputedCss.Text
