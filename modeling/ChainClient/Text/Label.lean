/-!
# Labels in front of a text
-/

namespace ChainClient.Text

/-- What follows the label, if the text begins with it. -/
def stripLabel? : List Char → List Char → Option (List Char)
  | [], cs => some cs
  | _ :: _, [] => none
  | l :: label, c :: cs => if l = c then stripLabel? label cs else none

theorem stripLabel?_append (label cs : List Char) : stripLabel? label (label ++ cs) = some cs := by
  induction label with
  | nil => rfl
  | cons l label ih => simp [stripLabel?, ih]

theorem stripLabel?_eq_some_iff {label cs rest : List Char} :
    stripLabel? label cs = some rest ↔ cs = label ++ rest := by
  refine ⟨fun h ↦ ?_, fun h ↦ h ▸ stripLabel?_append label rest⟩
  fun_induction stripLabel? label cs with
  | case1 => simp_all
  | case2 => simp at h
  | case3 label l cs ih => simp [ih h]
  | case4 => simp at h

end ChainClient.Text
