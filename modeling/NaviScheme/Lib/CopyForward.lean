import Mathlib.Data.List.Basic

/-!
# Copying within a list, one element after the other

A loop that copies `n` elements of a list from position `i` to position `k` of the same list, the
first one first (`copyForward`), reads what it has written if `k` is within the elements that it
reads. What it leaves is then the beginning of them, repeated with the period `k - i`
(`copyForward_getElem?`). So it copies the elements exactly when they repeat themselves in this way
(`copyForward_copies_iff`).
-/

variable {β : Type*}

/-- `n` rounds of `t[k] = t[i]`, upwards. -/
def copyForward (t : List β) (k i : ℕ) : ℕ → List β
  | 0 => t
  | n + 1 => copyForward (t[i]?.elim t (t.set k)) (k + 1) (i + 1) n

theorem elim_set_getElem?_ne {t : List β} {o : Option β} {k p : ℕ} (h : p ≠ k) :
    (o.elim t (t.set k))[p]? = t[p]? := by
  cases o with
  | none => rfl
  | some x => exact List.getElem?_set_ne (Ne.symm h)

@[simp] theorem copyForward_length (t : List β) (k i n : ℕ) :
    (copyForward t k i n).length = t.length := by
  induction n generalizing t k i with
  | zero => rfl
  | succ n ih =>
    rw [copyForward, ih]
    cases t[i]? with
    | none => rfl
    | some x => exact List.length_set

/-- Nothing else is written. -/
theorem copyForward_frame {t : List β} {k i n p : ℕ} (h : p < k ∨ k + n ≤ p) :
    (copyForward t k i n)[p]? = t[p]? := by
  induction n generalizing t k i with
  | zero => rfl
  | succ n ih =>
    rw [copyForward, ih (by omega)]
    exact elim_set_getElem?_ne (by omega)

/-- What a round writes stays. -/
theorem copyForward_head {t : List β} {k i n : ℕ} (hk : k < t.length) (hi : i < t.length) :
    (copyForward t k i (n + 1))[k]? = t[i]? := by
  rw [copyForward, copyForward_frame (by omega), List.getElem?_eq_getElem hi]
  exact List.getElem?_set_self hk

/-- Copying to the left, or to where it is. -/
theorem copyForward_left {t : List β} {k i n j : ℕ} (hki : k ≤ i) (hi : i + n ≤ t.length)
    (hj : j < n) : (copyForward t k i n)[k + j]? = t[i + j]? := by
  induction n generalizing t k i j with
  | zero => exact absurd hj (Nat.not_lt_zero j)
  | succ n ih =>
    cases j with
    | zero => exact copyForward_head (by omega) (by omega)
    | succ j =>
      have hlen : (t[i]?.elim t (t.set k)).length = t.length := copyForward_length t k i 1
      have hidx : k + (j + 1) = k + 1 + j := by omega
      rw [copyForward, hidx, ih (by omega) (by omega) (by omega),
        elim_set_getElem?_ne (by omega)]
      congr 1
      omega

/-- Copying to the right: what is written is what is read, and that is what is there in the
end. -/
theorem copyForward_right {t : List β} {k i n j : ℕ} (hik : i < k) (hk : k + n ≤ t.length)
    (hj : j < n) : (copyForward t k i n)[k + j]? = (copyForward t k i n)[i + j]? := by
  induction n generalizing t k i j with
  | zero => exact absurd hj (Nat.not_lt_zero j)
  | succ n ih =>
    cases j with
    | zero =>
      change (copyForward t k i (n + 1))[k]? = (copyForward t k i (n + 1))[i]?
      rw [copyForward_head (by omega) (by omega), copyForward_frame (Or.inl hik)]
    | succ j =>
      have hlen : (t[i]?.elim t (t.set k)).length = t.length := copyForward_length t k i 1
      have hk' : k + (j + 1) = k + 1 + j := by omega
      have hi' : i + (j + 1) = i + 1 + j := by omega
      rw [copyForward, hk', hi']
      exact ih (by omega) (by omega) (by omega)

/-- **Copying to the right** repeats the elements before the target. -/
theorem copyForward_getElem? {t : List β} {k i n j : ℕ} (hik : i < k) (hk : k + n ≤ t.length)
    (hj : j < n) : (copyForward t k i n)[k + j]? = t[i + j % (k - i)]? := by
  induction j using Nat.strongRecOn with
  | ind j ih =>
    rw [copyForward_right hik hk hj]
    rcases Nat.lt_or_ge j (k - i) with hlt | hge
    · rw [copyForward_frame (by omega), Nat.mod_eq_of_lt hlt]
    · have hidx : i + j = k + (j - (k - i)) := by omega
      rw [hidx, ih (j - (k - i)) (by omega) (by omega), ← Nat.mod_eq_sub_mod hge]

/-- **The elements are copied** exactly when the target is not within them, or they repeat
themselves. -/
theorem copyForward_copies_iff {t : List β} {k i n : ℕ} (hi : i + n ≤ t.length)
    (hk : k + n ≤ t.length) :
    (∀ j < n, (copyForward t k i n)[k + j]? = t[i + j]?) ↔
      (i < k → ∀ j < n, t[i + j % (k - i)]? = t[i + j]?) := by
  rcases Nat.lt_or_ge i k with hik | hki
  · simp only [hik, true_implies]
    exact forall₂_congr fun j hj => by rw [copyForward_getElem? hik hk hj]
  · exact ⟨fun _ h => absurd h (Nat.not_lt.mpr hki), fun _ j hj => copyForward_left hki hi hj⟩
