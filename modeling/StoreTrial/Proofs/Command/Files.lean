import StoreTrial.Command.World

/-!
# Files of a world

A path that leads to a file leads to the same file whatever files there are: all directories on the
way are among those that need no name. `Leads` says which file that is. A content can be put in
every place that a path leads to (`replace_eq_ok_iff`). What is put in a place is read there
afterwards (`text_put_self`), and nothing changes in other places (`text_put_of_ne`).
-/

namespace StoreTrial.Command

namespace Path

/-! ## Where a path leads -/

/-- The path `text` leads to the place of the file with the plain path `place`. -/
def Leads (text place : String) : Prop :=
  ∃ path, ofText text = .ok path ∧ ∀ isFile, path.file isFile = .ok place

/-- A part of a path leads to a directory only if it is one of the two that are no names, and then
wherever files are. -/
theorem enter_eq_ok {isFile : String → Bool} {directory next : Directory} {part : String}
    (h : enter isFile directory part = .ok next) (isFile' : String → Bool) :
    enter isFile' directory part = .ok next := by
  unfold enter at h ⊢
  split at h
  · exact h
  · exact h
  · split at h <;> contradiction

/-- Parts that lead to a directory lead there wherever files are. -/
theorem follow_eq_ok {isFile : String → Bool} {start last : Directory} {parts : List String}
    (h : follow isFile start parts = .ok last) (isFile' : String → Bool) :
    follow isFile' start parts = .ok last := by
  unfold follow at h ⊢
  -- The parts are followed from the left, so the start has to stay general.
  induction parts generalizing start with
  | nil => exact h
  | cons part parts ih =>
    rw [List.foldlM_cons] at h ⊢
    cases hpart : enter isFile start part with
    | error fault =>
      rw [hpart] at h
      contradiction
    | ok next =>
      rw [hpart] at h
      rw [enter_eq_ok hpart isFile']
      exact ih h

/-- A path that leads to a file leads there wherever files are, and does not end in a slash. -/
theorem file_eq_ok {isFile : String → Bool} {path : Path} {place : String}
    (h : path.file isFile = .ok place) :
    (∀ isFile', path.file isFile' = .ok place) ∧ path.endsInSlash = false := by
  unfold file at h ⊢
  cases hlast : path.parts.getLast? with
  | none =>
    rw [hlast] at h
    contradiction
  | some name =>
    rw [hlast] at h
    cases hfollow : follow isFile path.start path.parts.dropLast with
    | error fault =>
      simp only [hfollow] at h
      contradiction
    | ok directory =>
      simp only [hfollow, bind, Except.bind] at h
      refine ⟨fun isFile' => ?_, ?_⟩
      · simp only [follow_eq_ok hfollow isFile', bind, Except.bind]
        exact h
      · split at h
        · contradiction
        · simp_all

/-- A name leads to the file of that name. -/
theorem leads_name {name : String} (h : IsName name) : Leads name name :=
  ⟨_, ofText_name h, file_name h⟩

end Path

/-! ## Reading and writing -/

/-- A text is what its bytes are the text of. -/
theorem textOf_toUTF8 (text : String) : textOf text.toUTF8 = .ok text := by
  unfold textOf
  rw [String.toUTF8_eq_toByteArray, String.fromUTF8?, dif_pos text.isValidUTF8]
  rfl

namespace World

open Command.Path

/-- The world without files, input and output. -/
def empty : World := ⟨fun _ => none, .empty, "", "", 0⟩

/-- The world with a content in a place. -/
def put (place content : String) (world : World) : World :=
  { world with
    files := fun other => if other = place then some content.toUTF8 else world.files other }

/-- A path that leads to a place is read there. -/
theorem text_of_leads {path place : String} (h : Leads path place) (world : World) :
    world.text path =
      match world.files place with
      | some bytes => textOf bytes
      | none => .error .notFound := by
  obtain ⟨parts, hparts, hfile⟩ := h
  -- The walk to the end of a path with a slash there cannot come up: such a path leads to no file.
  have hslash : parts.endsInSlash = false := (file_eq_ok (hfile world.isFile)).2
  unfold text
  cases hbytes : world.files place <;>
    simp only [hparts, hfile, hslash, hbytes, bind, Except.bind, Bool.false_eq_true, if_false]

/-- A content can be put in every place that a path leads to, and nowhere else. -/
theorem replace_eq_ok_iff {world after : World} {path content : String} :
    world.replace path content = .ok after ↔
      ∃ place, Leads path place ∧ after = world.put place content := by
  constructor
  · intro h
    cases hparts : ofText path with
    | error fault =>
      simp only [replace, hparts] at h
      contradiction
    | ok parts =>
      cases hfile : parts.file world.isFile with
      | error fault =>
        simp only [replace, hparts, hfile, bind, Except.bind] at h
        contradiction
      | ok place =>
        simp only [replace, hparts, hfile, bind, Except.bind] at h
        exact ⟨place, ⟨parts, hparts, (file_eq_ok hfile).1⟩, (Except.ok.inj h).symm⟩
  · rintro ⟨place, ⟨parts, hparts, hfile⟩, rfl⟩
    simp only [replace, hparts, hfile, bind, Except.bind]
    rfl

/-- What is put in a place is read there. -/
theorem text_put_self {path place : String} (h : Leads path place) (content : String)
    (world : World) : (world.put place content).text path = .ok content := by
  rw [text_of_leads h]
  simp only [put, if_true, textOf_toUTF8]

/-- What is put in a place is not seen in another. -/
theorem text_put_of_ne {path place other : String} (h : Leads path place) (hne : place ≠ other)
    (content : String) (world : World) :
    (world.put other content).text path = world.text path := by
  rw [text_of_leads h, text_of_leads h]
  simp only [put, if_neg hne]

end World

end StoreTrial.Command
