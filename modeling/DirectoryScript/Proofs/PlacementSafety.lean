import DirectoryScript.Proofs.Resolving
import DirectoryScript.Workspace

namespace DirectoryScript

namespace Placement

/-- What a move relies on: the folder is there and not inside what is moved, the name is free in
it, and something changes place. -/
structure Usable (root : Directory) (home : Path) (source : Text) (target : Placement) : Prop where
  folder : root.Resolves target.folder
  free : ¬ root.Resolves (target.folder ++ [target.name])
  outside : ¬ home ++ [source] <+: target.folder
  elsewhere : ¬ (target.folder = home ∧ target.name = source)

theorem settle_ok {root : Directory} {home folder : Path} {source name : Text} {target : Placement}
    (h : settle root home source folder name = .ok target) :
    target = ⟨folder, name⟩ ∧ root.Resolves folder ∧ ¬ root.Resolves (folder ++ [name]) ∧
      ¬ (folder = home ∧ name = source) := by
  unfold settle at h
  split at h
  next => simp at h
  next d hd =>
    split at h
    next => simp at h
    next hshown =>
      split at h
      next => simp at h
      next hfree =>
        rw [Directory.has_iff_resolves_under hd] at hfree
        refine ⟨(Except.ok.inj h).symm, Directory.resolves_of_at? hd, hfree, ?_⟩
        rintro ⟨rfl, rfl⟩
        exact hshown ⟨rfl, rfl⟩

/-- A walk that ends well stays, ascends, enters a directory that is not the one moved, or stops
at a free name. -/
theorem walk_cons_ok {root : Directory} {home folder : Path} {source step : Text}
    {steps : List Text} {target : Placement}
    (h : walk root home source folder (step :: steps) = .ok target) :
    (step = here ∧ walk root home source folder steps = .ok target) ∨
    (step = above ∧ walk root home source folder.dropLast steps = .ok target) ∨
    (step ≠ here ∧ step ≠ above ∧ ¬ (folder = home ∧ step = source) ∧
      (walk root home source (folder ++ [step]) steps = .ok target ∨
        steps = [] ∧ settle root home source folder step = .ok target)) := by
  rw [walk] at h
  split at h
  next hhere => exact Or.inl ⟨hhere, h⟩
  next hhere =>
    split at h
    next habove =>
      split at h
      next => simp at h
      next => exact Or.inr (Or.inl ⟨habove, h⟩)
    next habove =>
      split at h
      next => simp at h
      next d hd =>
        split at h
        next => simp at h
        next hshown =>
          refine Or.inr (Or.inr ⟨hhere, habove, ?_, ?_⟩)
          · rintro ⟨rfl, rfl⟩
            exact hshown ⟨rfl, rfl⟩
          · split at h
            next =>
              split at h
              next => simp at h
              next => exact Or.inl h
            next =>
              split at h
              next hlast => exact Or.inr ⟨hlast, h⟩
              next => simp at h

theorem walk_usable {root : Directory} {home folder : Path} {source : Text} {steps : List Text}
    {target : Placement} (h : walk root home source folder steps = .ok target)
    (outside : ¬ home ++ [source] <+: folder) : target.Usable root home source := by
  induction steps generalizing folder with
  | nil =>
    obtain ⟨rfl, hfolder, hfree, hne⟩ := settle_ok h
    exact ⟨hfolder, hfree, outside, hne⟩
  | cons step steps ih =>
    rcases walk_cons_ok h with ⟨_, h⟩ | ⟨_, h⟩ | ⟨_, _, hne, h | ⟨_, h⟩⟩
    · exact ih h outside
    · exact ih h fun hp => outside (hp.trans folder.dropLast_prefix)
    · -- Entering is the only step that could lead into what is moved, and only from home.
      refine ih h fun hp => ?_
      exact (Path.below_concat hp).elim hne outside
    · obtain ⟨rfl, hfolder, hfree, hne⟩ := settle_ok h
      exact ⟨hfolder, hfree, outside, hne⟩

theorem resolve_usable {root : Directory} {home : Path} {source destination : Text}
    {target : Placement} (h : resolve root home source destination = .ok target) :
    target.Usable root home source :=
  walk_usable h (Path.not_below_self home source)

theorem walk_name {root : Directory} {home folder : Path} {source : Text} {steps : List Text}
    {target : Placement} (h : walk root home source folder steps = .ok target) :
    target.name = source ∨ target.name ∈ steps ∧ target.name ≠ here ∧ target.name ≠ above := by
  induction steps generalizing folder with
  | nil => exact Or.inl (by rw [(settle_ok h).1])
  | cons step steps ih =>
    rcases walk_cons_ok h with ⟨_, h⟩ | ⟨_, h⟩ | ⟨hhere, habove, _, h | ⟨_, h⟩⟩
    · exact (ih h).imp_right fun hm => ⟨List.mem_cons_of_mem step hm.1, hm.2⟩
    · exact (ih h).imp_right fun hm => ⟨List.mem_cons_of_mem step hm.1, hm.2⟩
    · exact (ih h).imp_right fun hm => ⟨List.mem_cons_of_mem step hm.1, hm.2⟩
    · rw [(settle_ok h).1]
      exact Or.inr ⟨List.mem_cons_self, hhere, habove⟩

namespace Usable

variable {root active rest moved : Directory} {home : Path} {source : Text} {target : Placement}

theorem not_below (h : target.Usable root home source) :
    ¬ home ++ [source] <+: target.folder ++ [target.name] := by
  intro hp
  exact (Path.below_concat hp).elim h.elsewhere h.outside

/-- What is detached leaves the folder of a usable placement where it is, with the name free. -/
theorem survives (h : target.Usable root home source) (ha : root.at? home = some active)
    (hr : active.remove? source = some (moved, rest)) :
    ∃ folder, (root.change (fun _ => rest) home).at? target.folder = some folder ∧
      folder.child? target.name = none := by
  obtain ⟨_, _, he⟩ := Option.map_eq_some_iff.mp hr
  obtain ⟨rfl, rfl⟩ := Prod.mk.inj he
  have hfolder : (root.change (fun _ => active.without source) home).Resolves target.folder :=
    (Directory.resolves_detach ha).mpr ⟨h.folder, h.outside⟩
  obtain ⟨folder, hf⟩ := Directory.resolves_iff.mp hfolder
  refine ⟨folder, hf, ?_⟩
  rw [Directory.child?_eq_none_iff_under hf, Directory.resolves_detach ha]
  exact fun hn => h.free hn.1

end Usable

end Placement

end DirectoryScript
