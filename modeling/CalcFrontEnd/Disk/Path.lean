/-
  PATHS — names between slashes.

  `pathPieces` cuts a path at its slashes and keeps the empty pieces, because an empty last piece says
  that the path has to lead to a directory.  `fileName` is the name that a path ends in: empty pieces
  and `.` are passed over, and a path that ends in `..`, or holds no name at all, is its own name.

  The pieces make up the path (`intercalate_pathPieces`), and the name is one of them (`fileName_cases`).
-/

namespace CalcFrontEnd

/-- The pieces of a path between its slashes; there is always at least one. -/
def pathPieces : List Char → List (List Char)
  | [] => [[]]
  | c :: text =>
    if c = '/' then [] :: pathPieces text
    else match pathPieces text with
      | [] => [[c]]
      | piece :: others => (c :: piece) :: others

/-- The name at the end of a path; a path that ends in no name is named by itself. -/
def fileName (path : String) : String :=
  let names := (pathPieces path.toList).filter fun piece => piece ≠ [] && piece ≠ ['.']
  match names.getLast? with
  | none => path
  | some name => if name = ['.', '.'] then path else String.ofList name

/-! ## What is cut, and what is named -/

theorem pathPieces_ne_nil (text : List Char) : pathPieces text ≠ [] := by
  cases text with
  | nil => simp [pathPieces]
  | cons c text =>
    unfold pathPieces
    split
    · exact List.cons_ne_nil _ _
    · split <;> exact List.cons_ne_nil _ _

/-- **The pieces make up the path**, with a slash between any two neighbours. -/
theorem intercalate_pathPieces (text : List Char) : ['/'].intercalate (pathPieces text) = text := by
  induction text with
  | nil => rfl
  | cons c text ih =>
    obtain ⟨piece, others, hpieces⟩ := List.exists_cons_of_ne_nil (pathPieces_ne_nil text)
    rw [hpieces] at ih
    unfold pathPieces
    split
    · rename_i hc
      rw [hpieces, hc, List.intercalate_cons_cons, ih]
      rfl
    · rw [hpieces]
      cases others with
      | nil => exact congrArg (c :: ·) (by simpa using ih)
      | cons next others =>
        rw [List.intercalate_cons_cons] at ih ⊢
        exact congrArg (c :: ·) ih

/-- No piece has a slash in it. -/
theorem slash_not_mem_pathPieces {text piece : List Char} (h : piece ∈ pathPieces text) :
    '/' ∉ piece := by
  induction text generalizing piece with
  | nil =>
    obtain rfl := List.mem_singleton.mp h
    exact List.not_mem_nil
  | cons c text ih =>
    unfold pathPieces at h
    split at h
    · rcases List.mem_cons.mp h with rfl | h
      · exact List.not_mem_nil
      · exact ih h
    · rename_i hc
      split at h
      · obtain rfl := List.mem_singleton.mp h
        simpa using Ne.symm hc
      · rename_i first others hpieces
        rcases List.mem_cons.mp h with rfl | h
        · have hfirst : '/' ∉ first := ih (by rw [hpieces]; exact List.mem_cons_self)
          simpa [hfirst] using Ne.symm hc
        · exact ih (by rw [hpieces]; exact List.mem_cons_of_mem _ h)

/-- **The name of a path is one of its pieces**, and none of those that name no file; or it is the path. -/
theorem fileName_cases (path : String) :
    fileName path = path ∨
      ∃ name ∈ pathPieces path.toList, name ≠ [] ∧ name ≠ ['.'] ∧ name ≠ ['.', '.'] ∧
        fileName path = String.ofList name := by
  unfold fileName
  simp only
  split
  · exact Or.inl rfl
  · rename_i name hname
    obtain ⟨hmem, hkept⟩ := List.mem_filter.mp (List.mem_of_getLast? hname)
    obtain ⟨hne, hdot⟩ : name ≠ [] ∧ name ≠ ['.'] := by simpa using hkept
    split
    · exact Or.inl rfl
    · rename_i hup
      exact Or.inr ⟨name, hmem, hne, hdot, hup, rfl⟩

/-- Empty pieces and dots are passed over, two dots are not. -/
example : fileName "d/./in.txt/." = "in.txt" ∧ fileName "d/.." = "d/.." ∧ fileName "/" = "/" := by
  decide +kernel

end CalcFrontEnd
