/-
  READING BACK — what a path gives once a file has been written.

  1. **Data** — `locate` is the location that a path leads to: where it is read, and, if a file may be
     written there, where it is written (`locate_of_target`).

  2. **Specification** — a path that was written gives what was written (`read_put_target`), and a path
     that leads elsewhere gives what it gave before (`read_put_of_ne`).

  3. **The crux (`walk_put`)** — a walk steps through directories only.  The place of a written file was
     none, so no walk that came through has touched it, and none is led astray by the file.
-/
import CalcFrontEnd.Disk.Basic

namespace CalcFrontEnd.Disk

/-- The location that a path leads to. -/
def locate (disk : Disk) (path : String) : Except Refusal Location :=
  disk.walk (disk.start path.toList) ((pathPieces path.toList).map Step.ofPiece)

/-- A path is read at the location it leads to. -/
theorem read_eq_ok_iff {disk : Disk} {path text : String} :
    disk.read path = .ok text ↔
      ∃ location, disk.locate path = .ok location ∧
        disk.find? location = some (.file (some text)) := by
  unfold read locate
  cases disk.walk (disk.start path.toList) ((pathPieces path.toList).map Step.ofPiece) with
  | error refusal => simp
  | ok location =>
    simp only [Except.ok.injEq, exists_eq_left']
    cases disk.find? location with
    | none => simp
    | some node =>
      cases node with
      | directory => simp
      | file content => cases content <;> simp

/-! ## Walks -/

/-- A first step is taken from a directory. -/
theorem walk_cons_eq_ok_iff {disk : Disk} {location goal : Location} {step : Step}
    {steps : List Step} :
    disk.walk location (step :: steps) = .ok goal ↔
      disk.find? location = some .directory ∧ disk.walk (step.apply location) steps = .ok goal := by
  rw [walk]
  cases disk.find? location with
  | none => simp
  | some node => cases node <;> simp

/-- A walk in two parts. -/
theorem walk_append_eq_ok_iff {disk : Disk} {location goal : Location} {front back : List Step} :
    disk.walk location (front ++ back) = .ok goal ↔
      ∃ middle, disk.walk location front = .ok middle ∧ disk.walk middle back = .ok goal := by
  induction front generalizing location with
  | nil => simp [walk]
  | cons step front ih =>
    rw [List.cons_append, walk_cons_eq_ok_iff, ih]
    constructor
    · rintro ⟨hdirectory, middle, hfront, hback⟩
      exact ⟨middle, walk_cons_eq_ok_iff.mpr ⟨hdirectory, hfront⟩, hback⟩
    · rintro ⟨middle, hfront, hback⟩
      obtain ⟨hdirectory, hfront⟩ := walk_cons_eq_ok_iff.mp hfront
      exact ⟨hdirectory, middle, hfront, hback⟩

/-- **A walk that came through comes through again**, whatever is put where no directory stood. -/
theorem walk_put {disk : Disk} {place : Location} (hplace : disk.find? place ≠ some .directory)
    (node : Node) {location goal : Location} {steps : List Step}
    (h : disk.walk location steps = .ok goal) :
    (disk.put place node).walk location steps = .ok goal := by
  induction steps generalizing location with
  | nil => exact h
  | cons step steps ih =>
    obtain ⟨hdirectory, hsteps⟩ := walk_cons_eq_ok_iff.mp h
    have hne : location ≠ place := by
      rintro rfl
      exact hplace hdirectory
    refine walk_cons_eq_ok_iff.mpr ⟨?_, ih hsteps⟩
    rw [find?_put_of_ne disk hne]
    exact hdirectory

theorem locate_put {disk : Disk} {place : Location} (hplace : disk.find? place ≠ some .directory)
    (node : Node) {path : String} {location : Location} (h : disk.locate path = .ok location) :
    (disk.put place node).locate path = .ok location :=
  walk_put hplace node h

/-! ## Files that may be written -/

/-- Where a path may be written: its last piece is a name in a directory that the pieces in front of it
    lead to, and no directory has that name. -/
theorem target_eq_ok {disk : Disk} {path : String} {place : Location}
    (h : disk.target path = .ok place) :
    ∃ front last parent name, pathPieces path.toList = front ++ [last] ∧
      Step.ofPiece last = .down name ∧
      disk.walk (disk.start path.toList) (front.map Step.ofPiece ++ [.stay]) = .ok parent ∧
      place = parent ++ [name] ∧ disk.find? place ≠ some .directory := by
  unfold target at h
  simp only at h
  split at h
  · cases h
  · rename_i last hlast
    split at h
    · cases h
    · rename_i parent hwalk
      split at h
      · cases h
      · cases h
      · rename_i name hstep
        split at h
        · cases h
        · rename_i hkeep
          cases h
          obtain ⟨hlength, hplace⟩ := not_or.mp hkeep
          -- no empty pieces were taken off the end, so the names are all the pieces
          have hnames : ((pathPieces path.toList).reverse.dropWhile List.isEmpty).reverse =
              pathPieces path.toList := by
            have hsuffix : (pathPieces path.toList).reverse.dropWhile List.isEmpty =
                (pathPieces path.toList).reverse := by
              refine (List.dropWhile_suffix _).eq_of_length ?_
              rw [List.length_reverse] at hlength ⊢
              omega
            rw [hsuffix, List.reverse_reverse]
          rw [hnames] at hlast hwalk
          obtain ⟨front, hfront⟩ := List.getLast?_eq_some_iff.mp hlast
          rw [hfront, List.dropLast_concat] at hwalk
          exact ⟨front, last, parent, name, hfront, hstep, hwalk, rfl, hplace⟩

/-- A path that may be written leads to the place where it is written.  The place is not the root, and
    no directory stands there. -/
theorem locate_of_target {disk : Disk} {path : String} {place : Location}
    (h : disk.target path = .ok place) :
    disk.locate path = .ok place ∧ place ≠ [] ∧ disk.find? place ≠ some .directory := by
  obtain ⟨front, last, parent, name, hpieces, hstep, hwalk, rfl, hplace⟩ := target_eq_ok h
  refine ⟨?_, List.concat_ne_nil _ _, hplace⟩
  -- the step that stays asks for a directory, from which the last name goes down
  obtain ⟨middle, hfront, hstay⟩ := walk_append_eq_ok_iff.mp hwalk
  obtain ⟨hdirectory, hmiddle⟩ := walk_cons_eq_ok_iff.mp hstay
  have hparent : middle = parent := Except.ok.inj hmiddle
  rw [hparent] at hfront hdirectory
  show disk.walk _ ((pathPieces path.toList).map Step.ofPiece) = _
  rw [hpieces, List.map_append]
  refine walk_append_eq_ok_iff.mpr ⟨parent, hfront, ?_⟩
  show disk.walk parent [Step.ofPiece last] = _
  rw [hstep]
  exact walk_cons_eq_ok_iff.mpr ⟨hdirectory, rfl⟩

/-- **What was written is read back.** -/
theorem read_put_target {disk : Disk} {path : String} {place : Location}
    (h : disk.target path = .ok place) (text : String) :
    (disk.put place (.file (some text))).read path = .ok text := by
  obtain ⟨hlocate, hroot, hplace⟩ := locate_of_target h
  exact read_eq_ok_iff.mpr ⟨place, locate_put hplace _ hlocate, find?_put_self disk hroot _⟩

/-- **Another path is read as before.** -/
theorem read_put_of_ne {disk : Disk} {path other text : String} {place : Location}
    (h : disk.target path = .ok place) (hother : disk.read other = .ok text)
    (hne : disk.locate other ≠ .ok place) (node : Node) :
    (disk.put place node).read other = .ok text := by
  obtain ⟨-, -, hplace⟩ := locate_of_target h
  obtain ⟨location, hlocate, hnode⟩ := read_eq_ok_iff.mp hother
  have hapart : location ≠ place := by
    rintro rfl
    exact hne hlocate
  refine read_eq_ok_iff.mpr ⟨location, locate_put hplace node hlocate, ?_⟩
  rw [find?_put_of_ne disk hapart]
  exact hnode

end CalcFrontEnd.Disk
