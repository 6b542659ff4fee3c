namespace ImageDigest.Number

def total (values : List Nat) : Nat := values.foldl (fun sum n => sum + n) 0

theorem foldl_add_eq (values : List Nat) (start : Nat) :
    values.foldl (fun sum n => sum + n) start = start + total values := by
  induction values generalizing start with
  | nil => rfl
  | cons n rest ih =>
    rw [total, List.foldl_cons, List.foldl_cons, ih, ih (0 + n)]
    omega

theorem total_nil : total [] = 0 := rfl

theorem total_cons (n : Nat) (rest : List Nat) : total (n :: rest) = n + total rest := by
  rw [total, List.foldl_cons, foldl_add_eq]
  omega

end ImageDigest.Number
