import DirectoryScript.Proofs.ValidName

namespace DirectoryScript

namespace Path

/-- Where one step of a destination leads from a path. -/
def step (p : Path) (s : Text) : Path :=
  if s = here then p else if s = above then p.dropLast else p ++ [s]

/-- Where the first `i` steps of a destination lead from a path. -/
def after (p : Path) (steps : List Text) (i : Nat) : Path := (steps.take i).foldl step p

theorem step_here (p : Path) : p.step here = p := by simp [step]

theorem step_above (p : Path) : p.step above = p.dropLast := by
  have hne : above ≠ here := by decide
  simp [step, hne]

theorem step_name {p : Path} {name : Text} (h : isName name = true) :
    p.step name = p ++ [name] := by
  simp [step, isName_ne_here h, isName_ne_above h]

@[simp] theorem after_zero (p : Path) (steps : List Text) : p.after steps 0 = p := rfl

/-- One step more is taken from where the steps before it lead. -/
theorem after_succ {p : Path} {steps : List Text} {i : Nat} {s : Text} (h : steps[i]? = some s) :
    p.after steps (i + 1) = (p.after steps i).step s := by
  simp [after, List.take_add_one, h]

theorem after_of_length_le {p : Path} {steps : List Text} {i : Nat} (h : steps.length ≤ i) :
    p.after steps i = p.after steps steps.length := by
  simp [after, List.take_of_length_le h]

/-- The first steps lead where they would without the others. -/
theorem after_append_left (p : Path) {steps more : List Text} {i : Nat} (h : i ≤ steps.length) :
    p.after (steps ++ more) i = p.after steps i := by
  rw [after, after, List.take_append_of_le_length h]

/-- Steps after others begin where these end. -/
theorem after_append_right (p : Path) (steps more : List Text) (i : Nat) :
    p.after (steps ++ more) (steps.length + i) = (p.after steps steps.length).after more i := by
  rw [after, List.take_length_add_append, List.foldl_append, after, after, List.take_length]

theorem after_names (p : Path) {names : List Text} (h : ∀ name ∈ names, isName name = true)
    (i : Nat) : p.after names i = p ++ names.take i := by
  induction names generalizing p i with
  | nil => simp [after]
  | cons name names ih =>
    cases i with
    | zero => simp
    | succ i =>
      have hname := h name List.mem_cons_self
      have hrest := ih (p ++ [name]) (fun other hm => h other (List.mem_cons_of_mem name hm)) i
      have hstep : p.after (name :: names) (i + 1) = (p.step name).after names i := rfl
      rw [hstep, step_name hname, hrest, List.take_succ_cons, List.append_assoc]
      rfl

/-- Ascending takes names off the end of a path as long as there are any. -/
theorem after_ascent (p : Path) (n : Nat) {i : Nat} (h : i ≤ n) :
    p.after (List.replicate n above) i = p.take (p.length - i) := by
  induction i with
  | zero => simp
  | succ i ih =>
    have hs : (List.replicate n above)[i]? = some above := by
      rw [List.getElem?_replicate, if_pos (by omega)]
    rw [after_succ hs, step_above, ih (by omega), List.dropLast_eq_take, List.take_take,
      List.length_take]
    congr 1
    omega

end Path

end DirectoryScript
