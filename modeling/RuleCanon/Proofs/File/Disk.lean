import RuleCanon.File.Disk

/-!
# Reading what was written

A text that was written to a path is read from this path.  The path is followed anew on the disk
after the change, name by name; all names but the last are those of directories, and writing a
text takes no directory away.

## Main Statements

* `Disk.HasDirectories.resolve_eq` — a path leads to the same place if no directory is lost
* `Disk.read_of_write` — the text is there, so a disk is a `LawfulFileSystem`
-/

namespace RuleCanon

namespace Table

variable {α : Type} {t : Table α} {key k : String} {value : α}

/-- An insertion takes no key away. -/
theorem mem_keys_insert_of_mem (h : k ∈ t.keys) : k ∈ (t.insert key value).keys := by
  show k ∈ (insertEntry key value t.entries).map (·.1)
  rw [keys] at h
  generalize t.entries = l at h
  fun_induction insertEntry key value l with
  | case1 => contradiction
  | case2 => exact List.mem_cons_of_mem _ h
  | case3 => exact h
  | case4 head other rest _ _ ih =>
      rcases List.mem_cons.1 h with rfl | h
      · exact List.mem_cons_self
      · exact List.mem_cons_of_mem _ (ih h)

end Table

namespace Disk

variable {d e : Disk} {path : String} {content name : List Char} {names : List (List Char)}
  {place next : Place}

/-- A disk with at least the directories of another one. -/
def HasDirectories (e d : Disk) : Prop :=
  ∀ place, d.lookup? place = some .directory → e.lookup? place = some .directory

/-- A step leads from a directory. -/
theorem lookup?_of_step (h : d.step place name = .ok next) : d.lookup? place = some .directory := by
  unfold step at h
  split at h
  · contradiction
  · assumption
  · contradiction

/-- With these directories each step leads to the same place. -/
theorem HasDirectories.step_eq (hdirs : e.HasDirectories d) (h : d.step place name = .ok next) :
    e.step place name = .ok next := by
  have hplace := lookup?_of_step h
  unfold step at h ⊢
  rw [hplace] at h
  rw [hdirs place hplace]
  exact h

theorem HasDirectories.foldlM_step_eq (hdirs : e.HasDirectories d)
    (h : names.foldlM d.step place = .ok next) : names.foldlM e.step place = .ok next := by
  induction names generalizing place with
  | nil => exact h
  | cons name names ih =>
      rw [List.foldlM_cons] at h ⊢
      cases hstep : d.step place name with
      | error fault =>
          rw [hstep] at h
          contradiction
      | ok middle =>
          rw [hstep] at h
          rw [hdirs.step_eq hstep]
          exact ih h

theorem HasDirectories.resolve_eq (hdirs : e.HasDirectories d) {path : List Char}
    (h : d.resolve path = .ok place) : e.resolve path = .ok place := by
  unfold resolve at h ⊢
  split at h
  · exact hdirs.foldlM_step_eq h
  · exact hdirs.foldlM_step_eq h

theorem dropSlashes_eq_self {path : List Char} (h : path.getLast? ≠ some '/') :
    dropSlashes path = path := by
  have hlast : path.reverse.dropWhile (· == '/') = path.reverse := by
    rw [← List.head?_reverse] at h
    cases hreverse : path.reverse with
    | nil => rfl
    | cons c rest =>
        rw [hreverse, List.head?_cons] at h
        exact List.dropWhile_cons_of_neg fun hc => h (by rw [beq_iff_eq.1 hc])
  rw [dropSlashes, hlast, List.reverse_reverse]

/-- Where a text can be written there is no directory, and the path leads there. -/
theorem of_target (h : d.target path = .ok names) :
    d.resolve path.toList = .ok (.inside names) ∧ d.lookup? (.inside names) ≠ some .directory := by
  unfold target at h
  split at h
  · contradiction
  · next place hresolve =>
    split at h
    · contradiction
    · next hneither =>
      rw [not_or] at hneither
      rw [dropSlashes_eq_self hneither.1] at hresolve
      split at h
      · cases h
        exact ⟨hresolve, hneither.2⟩
      · contradiction

/-- What is below some names stays there. -/
theorem hasBelow_write (h : d.write path content = .ok e) {below : List (List Char)}
    (hbelow : d.hasBelow below = true) : e.hasBelow below = true := by
  obtain ⟨names, -, rfl⟩ := write_eq_ok_iff.1 h
  obtain ⟨k, hk, hprefix⟩ := List.any_eq_true.1 hbelow
  exact List.any_eq_true.2 ⟨k, Table.mem_keys_insert_of_mem hk, hprefix⟩

/-- Writing a text takes no directory away. -/
theorem hasDirectories_write (htarget : d.target path = .ok names)
    (h : d.write path content = .ok e) : e.HasDirectories d := by
  obtain ⟨-, hfile⟩ := of_target htarget
  intro place hplace
  match place, hplace with
  | .outside, _ => rfl
  | .inside [], _ => rfl
  | .inside (name :: rest), hplace =>
      -- the place that was written to has another key, since it was no directory
      have hother : key (name :: rest) ≠ key names := by
        intro hsame
        cases names with
        | nil => exact hfile rfl
        | cons other others =>
            have hentry : d.lookup? (.inside (name :: rest)) =
                d.lookup? (.inside (other :: others)) := by
              simp only [lookup?, hasBelow, hsame]
              rfl
            exact hfile (hentry ▸ hplace)
      simp only [lookup?, entries_write_of_ne htarget h hother] at hplace ⊢
      split at hplace
      · exact hplace
      · split at hplace
        · next hbelow => exact if_pos (hasBelow_write h hbelow)
        · contradiction

/-- **What was written is read.** -/
theorem read_of_write (h : d.write path content = .ok e) : e.read path = .ok content := by
  obtain ⟨names, htarget, rfl⟩ := write_eq_ok_iff.1 h
  obtain ⟨hresolve, hfile⟩ := of_target htarget
  have hdirs := hasDirectories_write htarget h
  have hentry := entries_write_self htarget h
  rw [read, hdirs.resolve_eq hresolve]
  cases names with
  | nil => exact absurd rfl hfile
  | cons name names =>
      simp only [lookup?, hentry]
      rfl

instance : LawfulFileSystem Disk where
  content?_of_read h := congrArg Except.toOption h
  content?_of_write h := congrArg Except.toOption (read_of_write h)

end Disk

end RuleCanon
