import Galley.Proofs.Paths
import Galley.Scratch

/-!
Scratch files beside a tree of files.

Scratch files are numbered, so the ones made since some moment are those with a number
from then on. What lies outside of these is found as it was at that moment, however many
of them were made and removed since (`Files.Since.resolve_of_outside`). A path of the
tree has never the parts of a scratch file (`FilePath.Outside.not_same_scratch`).
-/

namespace Galley

/-- The path is not that of a scratch file with the given number or a later one. -/
def FilePath.Outside (serial : Nat) : FilePath → Prop
  | .named _ => True
  | .scratch n => n < serial

theorem FilePath.Outside.mono {p : FilePath} {m n : Nat} (h : p.Outside m) (hmn : m ≤ n) :
    p.Outside n := by
  cases p with
  | named text => trivial
  | scratch k => exact Nat.lt_of_lt_of_le h hmn

/-- A path does not have the parts of a scratch file that it lies outside of. -/
theorem FilePath.Outside.not_same_scratch {p : FilePath} {serial : Nat} (h : p.Outside serial) :
    p.same (.scratch serial) = false := by
  rw [Bool.eq_false_iff]
  intro hsame
  have hparts : p.parts = [.scratch serial] := eq_of_beq hsame
  cases p with
  | named text => exact scratch_notMem_parts text serial (hparts ▸ List.mem_singleton_self _)
  | scratch n =>
      obtain rfl : n = serial := by simpa [parts] using hparts
      exact Nat.lt_irrefl n h

namespace Files

/-! ### Scratch files made since -/

/-- The scratch files that are alive have numbers below that of the next one. -/
def Numbered (fs : Files) : Prop :=
  ∀ t ∈ fs.scratch, t.serial < fs.serial

/-- The files are those of an earlier moment, and the scratch files `made` since then. -/
structure Since (base : Files) (made : List Scratch) (fs : Files) : Prop where
  tree : fs.tree = base.tree
  home : fs.home = base.home
  hasRoom : fs.hasRoom = base.hasRoom
  scratch : fs.scratch = made ++ base.scratch
  serial_le : base.serial ≤ fs.serial
  made_le : ∀ t ∈ made, base.serial ≤ t.serial
  made_lt : ∀ t ∈ made, t.serial < fs.serial

namespace Since

variable {base fs : Files} {made : List Scratch}

theorem refl (base : Files) : Since base [] base where
  tree := rfl
  home := rfl
  hasRoom := rfl
  scratch := rfl
  serial_le := Nat.le_refl _
  made_le := by simp
  made_lt := by simp

/-- What lies outside of the scratch files made since is found as before. -/
theorem resolve_of_outside (h : Since base made fs) {p : FilePath} (hp : p.Outside base.serial) :
    fs.resolve p = base.resolve p := by
  cases p with
  | named text => rw [resolve, resolve, h.tree, h.home]
  | scratch n =>
      have hn : n < base.serial := hp
      have hmade : made.find? (fun t => t.serial == n) = none := by
        rw [List.find?_eq_none]
        intro t ht
        simpa using (Nat.ne_of_lt (Nat.lt_of_lt_of_le hn (h.made_le t ht))).symm
      rw [resolve, resolve, h.scratch, List.find?_append, hmade, Option.none_or]

theorem isFile_of_outside (h : Since base made fs) {p : FilePath} (hp : p.Outside base.serial) :
    fs.isFile p = base.isFile p := by
  rw [isFile, isFile, h.resolve_of_outside hp]

theorem readText_of_outside (h : Since base made fs) {p : FilePath} (hp : p.Outside base.serial) :
    fs.readText p = base.readText p := by
  rw [readText, readText, read, read, h.resolve_of_outside hp]

/-- A new scratch file is one more of those made since. -/
theorem addScratch? (h : Since base made fs) {lead text : String} {t : Scratch} {fs' : Files}
    (hadd : fs.addScratch? lead text = some (t, fs')) :
    Since base (t :: made) fs' ∧ t.serial = fs.serial ∧ fs'.readText t.path = .ok text := by
  rw [Files.addScratch?] at hadd
  split at hadd
  · obtain ⟨rfl, rfl⟩ := Prod.mk.inj (Option.some.inj hadd)
    refine ⟨⟨h.tree, h.home, h.hasRoom, ?_, Nat.le_succ_of_le h.serial_le, ?_, ?_⟩, rfl, ?_⟩
    · exact congrArg (List.cons _) h.scratch
    · exact List.forall_mem_cons.mpr ⟨h.serial_le, h.made_le⟩
    · refine List.forall_mem_cons.mpr ⟨Nat.lt_succ_self _, fun u hu => ?_⟩
      exact Nat.lt_succ_of_lt (h.made_lt u hu)
    · simp [readText, read, resolve, Scratch.path]
  · cases hadd

/-- Removing a scratch file made since takes it away from those, and nothing else. -/
theorem dropScratch (h : Since base made fs) (hbase : base.Numbered) {t : Scratch}
    (ht : base.serial ≤ t.serial) :
    Since base (made.filter fun u => u.serial != t.serial) (fs.dropScratch t) where
  tree := h.tree
  home := h.home
  hasRoom := h.hasRoom
  scratch := by
    have hkept : base.scratch.filter (fun u => u.serial != t.serial) = base.scratch := by
      rw [List.filter_eq_self]
      intro u hu
      simpa using Nat.ne_of_lt (Nat.lt_of_lt_of_le (hbase u hu) ht)
    rw [Files.dropScratch, h.scratch, List.filter_append, hkept]
  serial_le := h.serial_le
  made_le u hu := h.made_le u (List.mem_filter.mp hu).1
  made_lt u hu := h.made_lt u (List.mem_filter.mp hu).1

/-- Of the scratch files made since, those listed are alive. -/
theorem isAlive_iff (h : Since base made fs) (hbase : base.Numbered) {t : Scratch}
    (ht : base.serial ≤ t.serial) :
    fs.isAlive t = true ↔ ∃ u ∈ made, u.serial = t.serial := by
  rw [isAlive, h.scratch, List.any_append, Bool.or_eq_true, List.any_eq_true, List.any_eq_true]
  simp only [beq_iff_eq]
  refine or_iff_left ?_
  rintro ⟨u, hu, heq⟩
  exact absurd heq (Nat.ne_of_lt (Nat.lt_of_lt_of_le (hbase u hu) ht))

end Since

end Files

end Galley
