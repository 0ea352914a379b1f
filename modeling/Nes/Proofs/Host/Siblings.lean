import Nes.Host.Disk
import Nes.Proofs.Except
import Nes.Proofs.Host.Paths

/-!
# Files of one folder

A path is followed from directory to directory, so a file that can be read stands in a directory,
and every other name in its place leads to the same directory.  A file written where no directory
is leaves every path that led somewhere where it was.
-/

namespace Nes

/-! ### Names -/

namespace Path

/-- A step that leads to an entry of its own. -/
def Proper (step : List Char) : Prop := step ≠ [] ∧ step ≠ ['.'] ∧ step ≠ ['.', '.']

end Path

namespace Disk

variable {d : Disk} {place next : Place} {location here there : Location} {path other : String}
  {bytes : Array UInt8}

/-! ### One step -/

theorem enter_ok {step : List Char} (h : d.enter place step = .ok next) :
    d.entryAt? place = some .directory ∧
      (next = place ∨ next = place.parent ∨ Path.Proper step ∧ ∃ location,
        place = .inside location ∧ next = .inside (String.ofList step :: location)) := by
  unfold enter at h
  split at h
  case h_1 => cases h
  case h_2 => cases h
  case h_3 hdirectory =>
    refine ⟨hdirectory, ?_⟩
    split at h
    case isTrue => exact .inl (Except.ok.inj h).symm
    case isFalse hstays =>
      split at h
      case isTrue => exact .inr (.inl (Except.ok.inj h).symm)
      case isFalse hup =>
        rw [not_or] at hstays
        cases place with
        | outside => cases h
        | inside location =>
          exact .inr (.inr ⟨⟨hstays.1, hstays.2, hup⟩, location, rfl, (Except.ok.inj h).symm⟩)

/-- The location is in a directory, and so is that directory, up to the starting one. -/
def Rooted (d : Disk) : Location → Prop
  | [] => True
  | _ :: outer => d.lookup? outer = some .directory ∧ Rooted d outer

def Place.Rooted (d : Disk) : Place → Prop
  | .outside => True
  | .inside location => Disk.Rooted d location

theorem Place.Rooted.parent (h : place.Rooted d) : place.parent.Rooted d := by
  cases place with
  | outside => exact h
  | inside location =>
    cases location with
    | nil => exact h
    | cons name outer => exact h.2

theorem Place.Rooted.enter {step : List Char} (h : place.Rooted d)
    (hstep : d.enter place step = .ok next) : next.Rooted d := by
  obtain ⟨hdirectory, rfl | rfl | ⟨-, location, rfl, rfl⟩⟩ := enter_ok hstep
  · exact h
  · exact h.parent
  · exact ⟨hdirectory, h⟩

/-! ### Names of one folder -/

theorem resolve_ok (h : d.resolve path = .ok place) :
    (Path.steps path.toList).foldlM d.enter (start path.toList) = .ok place := by
  unfold resolve at h
  split at h
  · cases h
  · split at h
    · cases h
    · exact h

section Insert

variable (written : Array UInt8) (hfile : d.lookup? location ≠ some .directory)
include hfile

theorem entryAt?_insert (h : d.entryAt? place = some .directory) :
    (d.insert location written).entryAt? place = some .directory := by
  cases place with
  | outside => rfl
  | inside other =>
    have hne : other ≠ location := fun heq => hfile (heq ▸ h)
    exact (d.lookup?_insert_of_ne written hne).trans h

theorem enter_insert {step : List Char} (h : d.enter place step = .ok next) :
    (d.insert location written).enter place step = .ok next := by
  have hbefore := (enter_ok h).1
  have hafter := entryAt?_insert written hfile hbefore
  unfold enter at h ⊢
  rw [hbefore] at h
  rw [hafter]
  exact h

theorem resolve_insert (h : d.resolve path = .ok place) :
    (d.insert location written).resolve path = .ok place := by
  have hsteps := foldlM_mono (fun _ _ _ => enter_insert written hfile) (resolve_ok h)
  unfold resolve at h ⊢
  split at h
  · cases h
  · split at h
    · cases h
    · rw [if_neg ‹_›, if_neg ‹_›, hsteps]

end Insert

/-! ### A file and another beside it -/

/-- Nothing is there yet, or a file is. -/
def AbsentOrFile (d : Disk) (path : String) : Prop :=
  d.read path = .error .notFound ∨ ∃ bytes, d.read path = .ok bytes

theorem AbsentOrFile.read_ne (h : d.AbsentOrFile path) {e : PathError} (he : e ≠ .notFound) :
    d.read path ≠ .error e := by
  intro hread
  rcases h with h | ⟨old, h⟩
  · rw [h, Except.error.injEq] at hread
    exact he hread.symm
  · rw [h] at hread
    cases hread

theorem AbsentOrFile.fits (h : d.AbsentOrFile path) (hne : path ≠ "") :
    path.utf8ByteSize ≤ pathLimit := by
  refine Nat.not_lt.1 fun hlong => h.read_ne (e := .tooLong) nofun ?_
  unfold read resolve
  rw [if_neg (by rwa [String.isEmpty_iff]), if_pos hlong]
  rfl

/-- Both paths lead into a directory, to different entries, and no directory is at the second. -/
structure Beside (d : Disk) (path other : String) (here there : Location) : Prop where
  path : d.resolve path = .ok (.inside here)
  other : d.resolve other = .ok (.inside there)
  ne : here ≠ there
  free : d.lookup? there ≠ some .directory

namespace Beside

variable (h : Beside d path other here there)
include h

theorem there_ne_nil : there ≠ [] := fun heq => h.free (heq ▸ rfl)

theorem write (written : Array UInt8) : d.write other written = .ok (d.insert there written) := by
  have hfree := h.free
  unfold Disk.write
  rw [h.other]
  dsimp only [bind, Except.bind]
  split
  · exact absurd ‹_› hfree
  · rfl

theorem insert (written : Array UInt8) : Beside (d.insert there written) path other here there where
  path := resolve_insert written h.free h.path
  other := resolve_insert written h.free h.other
  ne := h.ne
  free := by
    rw [d.lookup?_insert_self written h.there_ne_nil]
    nofun

end Beside

end Disk

end Nes
