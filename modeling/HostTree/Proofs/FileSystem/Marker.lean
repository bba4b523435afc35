import HostTree.Marker
import HostTree.Proofs.FileSystem.Gain

/-!
What a look for a marker leaves behind: the file system as it was, if the marker was there, and else
one with the marker's file, to which the marker leads from then on.
-/

namespace HostTree

namespace FileSystem

variable {fs left : FileSystem} {marker : Path} {state : MarkerState}

/-- What is found answers for a marker, and stays. -/
theorem touchMarker_of_find {found : Inode × Node} (hFind : fs.find marker = .ok found) :
    fs.touchMarker marker = (.ok .second, fs) := by
  simp only [touchMarker, exists?, hFind]

theorem exists?_eq_true_iff :
    fs.exists? marker = .ok true ↔ ∃ found, fs.find marker = .ok found := by
  unfold exists?
  cases fs.find marker with
  | ok found => simp
  | error error =>
      simp only [reduceCtorEq, exists_false, iff_false]
      split
      · simp
      · simp

/-- Where a file could be made, it is found when it has been. -/
theorem find_add {directory : Inode} {name : Octets}
    (hVacant : fs.resolve asMaker marker = .ok (.vacant directory name))
    (permissions : Permissions) (content : Content) :
    (fs.add directory name (.file permissions content)).find marker =
      .ok (fs.nodes.length, .file permissions content) := by
  have hMade := (resolve_gains (gainsFile_add fs directory name permissions content)
    asMaker marker).made rfl hVacant
  refine find_eq_ok_iff.2 ⟨resolve_looking _ asMaker marker _ hMade, ?_⟩
  simp [add, node?]

/-- A file is only made where nothing is found. -/
theorem makeFile_eq_ok (hFind : ∀ found, fs.find marker ≠ .ok found)
    (hMake : fs.makeFile marker = .ok left) :
    ∃ directory name, fs.resolve asMaker marker = .ok (.vacant directory name) ∧
      left = fs.add directory name (.file .newFile (.octets [])) := by
  unfold makeFile at hMake
  split at hMake
  · simp at hMake
  · next inode hResolve =>
      have hLooking := resolve_looking fs asMaker marker _ hResolve
      cases hNode : fs.node? inode with
      | none => simp [hNode] at hMake
      | some node => exact absurd (find_eq_ok_iff.2 ⟨hLooking, hNode⟩) (hFind (inode, node))
  · next directory name hResolve =>
      split at hMake
      · split at hMake
        · exact ⟨directory, name, hResolve, (Except.ok.inj hMake).symm⟩
        · simp at hMake
      · simp at hMake

/-- A look for a marker finds it and changes nothing, or makes its file where there was nothing. -/
theorem touchMarker_eq_ok (hTouch : fs.touchMarker marker = (.ok state, left)) :
    (left = fs ∧ state = .second ∧ ∃ found, fs.find marker = .ok found) ∨
      state = .first ∧ (∀ found, fs.find marker ≠ .ok found) ∧
        ∃ directory name, fs.resolve asMaker marker = .ok (.vacant directory name) ∧
          left = fs.add directory name (.file .newFile (.octets [])) := by
  unfold touchMarker at hTouch
  split at hTouch
  · simp at hTouch
  · next hExists =>
      cases hTouch
      exact Or.inl ⟨rfl, rfl, exists?_eq_true_iff.1 hExists⟩
  · next hMissing =>
      have hFind : ∀ found, fs.find marker ≠ .ok found := by
        intro found hFound
        have hExists := exists?_eq_true_iff.2 ⟨found, hFound⟩
        simp [hMissing] at hExists
      split at hTouch
      · simp at hTouch
      · next made hMake =>
          cases hTouch
          exact Or.inr ⟨rfl, hFind, makeFile_eq_ok hFind hMake⟩

/-- A look for a marker that fails changes nothing. -/
theorem touchMarker_of_error {error : IoError} (hTouch : (fs.touchMarker marker).1 = .error error) :
    (fs.touchMarker marker).2 = fs := by
  unfold touchMarker at hTouch ⊢
  cases hExists : fs.exists? marker with
  | error error => rfl
  | ok isThere =>
      cases isThere with
      | true => rfl
      | false =>
          cases hMake : fs.makeFile marker with
          | error error => rfl
          | ok made => simp [hExists, hMake] at hTouch

/-- Whether a file system is another one with a new empty file for a marker that was not there, and
the same but for this file and its name. -/
structure GainsMarker (fs left : FileSystem) (marker : Path) : Prop where
  missing : fs.exists? marker = .ok false
  gains : ∃ directory name, fs.GainsFile left directory name fs.nodes.length
  found : left.find marker = .ok (fs.nodes.length, .file .newFile (.octets []))

/-- A marker that is found makes no difference. -/
theorem touchMarker_eq_second (hTouch : fs.touchMarker marker = (.ok .second, left)) :
    left = fs ∧ fs.exists? marker = .ok true := by
  obtain ⟨rfl, -, found, hFind⟩ | ⟨hState, -⟩ := touchMarker_eq_ok hTouch
  · exact ⟨rfl, exists?_eq_true_iff.2 ⟨found, hFind⟩⟩
  · cases hState

/-- The first look for a marker makes its file, and does nothing else. -/
theorem touchMarker_eq_first (hTouch : fs.touchMarker marker = (.ok .first, left)) :
    fs.GainsMarker left marker := by
  obtain ⟨-, hState, -⟩ | ⟨-, hMissing, directory, name, hVacant, rfl⟩ := touchMarker_eq_ok hTouch
  · cases hState
  · refine ⟨?_, ⟨directory, name, gainsFile_add ..⟩, find_add hVacant _ _⟩
    cases hExists : fs.exists? marker with
    | error error => simp [touchMarker, hExists] at hTouch
    | ok isThere =>
        cases isThere with
        | false => rfl
        | true =>
            obtain ⟨found, hFind⟩ := exists?_eq_true_iff.1 hExists
            exact absurd hFind (hMissing found)

/-- Once a look for a marker has succeeded, the next one finds it and changes nothing. -/
theorem touchMarker_again (hTouch : fs.touchMarker marker = (.ok state, left)) :
    left.touchMarker marker = (.ok .second, left) := by
  obtain ⟨rfl, -, found, hFind⟩ | ⟨-, -, directory, name, hVacant, rfl⟩ :=
    touchMarker_eq_ok hTouch
  · exact touchMarker_of_find hFind
  · exact touchMarker_of_find (find_add hVacant _ _)

end FileSystem

end HostTree
