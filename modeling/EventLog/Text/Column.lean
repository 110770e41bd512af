/-!
# Columns

Text aligned to the right in a column of a minimum width, counted in characters. A wider text keeps
all its characters.
-/

namespace EventLog.Text

/-- A text with spaces in front of it up to `width` characters. -/
def alignRight (width : Nat) (text : String) : String :=
  String.ofList (List.replicate (width - text.length) ' ' ++ text.toList)

/-- The characters of an aligned text: the spaces that are missing, then the text. -/
@[simp] theorem toList_alignRight (width : Nat) (text : String) :
    (alignRight width text).toList =
      List.replicate (width - text.length) ' ' ++ text.toList := by
  simp [alignRight]

end EventLog.Text
