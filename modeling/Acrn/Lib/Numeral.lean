import Mathlib.Data.Nat.Digits.Lemmas

/-!
# Numerals

The digits of a number in a base, the first one the most significant and a single zero for zero,
and texts in which the digits stand as characters. A text is the numeral of at most one number;
zeros in front do not change it.
-/

namespace Numeral

variable {γ : Type*} {b n : ℕ}

/-- The digits of a number. -/
def digitsOf (b n : ℕ) : List ℕ := if n = 0 then [0] else (Nat.digits b n).reverse

/-- The number that the digits stand for. -/
def valueOf (b : ℕ) (ds : List ℕ) : ℕ := ds.foldl (fun a d => a * b + d) 0

@[simp] theorem valueOf_nil : valueOf b [] = 0 := rfl

@[simp] theorem valueOf_append_singleton (ds : List ℕ) (d : ℕ) :
    valueOf b (ds ++ [d]) = valueOf b ds * b + d := by
  rw [valueOf, List.foldl_append]
  rfl

/-! ## The digits of a number -/

theorem digitsOf_of_lt (h : n < b) : digitsOf b n = [n] := by
  rw [digitsOf]
  split
  · rename_i hzero
    rw [hzero]
  · rename_i hne
    rw [Nat.digits_of_lt b n hne h, List.reverse_singleton]

/-- The last digit, and the digits in front of it. -/
theorem digitsOf_of_ge (hb : 1 < b) (h : b ≤ n) :
    digitsOf b n = digitsOf b (n / b) ++ [n % b] := by
  have hn : n ≠ 0 := by omega
  have hdiv : n / b ≠ 0 := Nat.ne_of_gt (Nat.div_pos h (by omega))
  rw [digitsOf, digitsOf, if_neg hn, if_neg hdiv, Nat.digits_eq_cons_digits_div hb hn,
    List.reverse_cons]

theorem digitsOf_ne_nil : digitsOf b n ≠ [] := by
  rw [digitsOf]
  split
  · exact List.cons_ne_nil _ _
  · rename_i hne
    exact List.reverse_ne_nil_iff.mpr (Nat.digits_ne_nil_iff_ne_zero.mpr hne)

theorem lt_of_mem_digitsOf (hb : 1 < b) : ∀ d ∈ digitsOf b n, d < b := by
  intro d hd
  rw [digitsOf] at hd
  split at hd
  · rw [List.mem_singleton.mp hd]
    omega
  · exact Nat.digits_lt_base hb (List.mem_reverse.mp hd)

theorem valueOf_digitsOf (hb : 1 < b) : valueOf b (digitsOf b n) = n := by
  induction n using Nat.strong_induction_on with
  | _ n ih =>
    rcases Nat.lt_or_ge n b with hlt | hge
    · rw [digitsOf_of_lt hlt, valueOf, List.foldl_cons, List.foldl_nil, Nat.zero_mul,
        Nat.zero_add]
    · have hsmaller : n / b < n := Nat.div_lt_self (by omega) hb
      rw [digitsOf_of_ge hb hge, valueOf_append_singleton, ih _ hsmaller, Nat.mul_comm]
      exact Nat.div_add_mod n b

/-- A number below a power of the base has no more digits than the exponent. -/
theorem length_digitsOf_le {k : ℕ} (hb : 1 < b) (hk : 0 < k) (h : n < b ^ k) :
    (digitsOf b n).length ≤ k := by
  rw [digitsOf]
  split
  · exact hk
  · rw [List.length_reverse, Nat.digits_length_le_iff hb]
    exact h

/-- The first digit of a number other than zero is not zero. -/
theorem head_digitsOf_ne_zero (hn : n ≠ 0) : (digitsOf b n).head digitsOf_ne_nil ≠ 0 := by
  have h : digitsOf b n = (Nat.digits b n).reverse := by rw [digitsOf, if_neg hn]
  simp only [h, List.head_reverse]
  exact Nat.getLast_digit_ne_zero b hn

/-! ## Limits

A loop that takes digits has to know beforehand whether the next one leads past the limit. The
limit divided by the base, and the remainder, decide that. -/

/-- Whether one more digit leads past a limit, found without going past it: by the quotient and the
remainder of the limit. -/
theorem limit_lt_iff {a d limit : ℕ} (hd : d < b) :
    limit < a * b + d ↔ limit / b < a ∨ a = limit / b ∧ limit % b < d := by
  have hdiv := Nat.div_add_mod limit b
  have hmod : limit % b < b := Nat.mod_lt _ (by omega)
  rcases Nat.lt_trichotomy a (limit / b) with hlt | heq | hgt
  · have hle : (a + 1) * b ≤ limit / b * b := Nat.mul_le_mul_right b hlt
    rw [Nat.add_mul, Nat.one_mul, Nat.mul_comm (limit / b)] at hle
    constructor
    · intro h
      omega
    · rintro (h | ⟨h, -⟩)
      · omega
      · omega
  · rw [heq, Nat.mul_comm]
    constructor
    · intro h
      exact .inr ⟨rfl, by omega⟩
    · rintro (h | ⟨-, h⟩)
      · omega
      · omega
  · have hle : (limit / b + 1) * b ≤ a * b := Nat.mul_le_mul_right b hgt
    rw [Nat.add_mul, Nat.one_mul, Nat.mul_comm (limit / b)] at hle
    exact iff_of_true (by omega) (.inl hgt)

/-- Further digits do not make a number smaller. -/
theorem le_foldl (hb : 0 < b) (ds : List ℕ) (a : ℕ) :
    a ≤ ds.foldl (fun a d => a * b + d) a := by
  induction ds generalizing a with
  | nil => exact Nat.le_refl a
  | cons d ds ih =>
    calc a ≤ a * b := Nat.le_mul_of_pos_right a hb
      _ ≤ a * b + d := Nat.le_add_right _ d
      _ ≤ _ := ih _

/-! ## Texts

The characters of the digits are given by a function, so that upper and lower case are instances of
one notion. -/

theorem valueOf_zeros_append (z : ℕ) (ds : List ℕ) :
    valueOf b (List.replicate z 0 ++ ds) = valueOf b ds := by
  induction z with
  | zero => rfl
  | succ z ih =>
    rw [List.replicate_succ, List.cons_append, valueOf, List.foldl_cons, Nat.zero_mul]
    exact ih

/-- The text is the numeral of the number, with `char` the characters of the digits. -/
def ReadsAs (char : ℕ → γ) (b : ℕ) (text : List γ) (n : ℕ) : Prop :=
  ∃ ds, ds ≠ [] ∧ (∀ d ∈ ds, d < b) ∧ text = ds.map char ∧ valueOf b ds = n

variable {char : ℕ → γ} {text : List γ}

/-- The digits of a number, with zeros in front. -/
theorem readsAs_zeros (char : ℕ → γ) (hb : 1 < b) (z n : ℕ) :
    ReadsAs char b (List.replicate z (char 0) ++ (digitsOf b n).map char) n := by
  refine ⟨List.replicate z 0 ++ digitsOf b n, fun h => ?_, fun d hd => ?_, ?_, ?_⟩
  · exact digitsOf_ne_nil (List.append_eq_nil_iff.mp h).2
  · obtain hzero | hdigit := List.mem_append.mp hd
    · rw [List.eq_of_mem_replicate hzero]
      omega
    · exact lt_of_mem_digitsOf hb d hdigit
  · rw [List.map_append, List.map_replicate]
  · rw [valueOf_zeros_append, valueOf_digitsOf hb]

theorem ReadsAs.ne_nil (h : ReadsAs char b text n) : text ≠ [] := by
  obtain ⟨ds, hne, -, rfl, -⟩ := h
  exact fun hnil => hne (List.map_eq_nil_iff.mp hnil)

/-- Every character is that of a digit. -/
theorem ReadsAs.mem (h : ReadsAs char b text n) {c : γ} (hc : c ∈ text) : ∃ d < b, char d = c := by
  obtain ⟨ds, -, hlt, rfl, -⟩ := h
  obtain ⟨d, hd, rfl⟩ := List.mem_map.mp hc
  exact ⟨d, hlt d hd, rfl⟩

/-- A text is the numeral of one number. -/
theorem ReadsAs.unique {m : ℕ} (hinj : ∀ d < b, ∀ e < b, char d = char e → d = e)
    (h : ReadsAs char b text n) (h' : ReadsAs char b text m) : n = m := by
  obtain ⟨ds, -, hds, rfl, rfl⟩ := h
  obtain ⟨es, -, hes, heq, rfl⟩ := h'
  have hsame : ds = es := by
    induction ds generalizing es with
    | nil => exact (List.map_eq_nil_iff.mp heq.symm).symm
    | cons d ds ih =>
      obtain ⟨e, es, rfl⟩ : ∃ e t, es = e :: t := by
        cases es with
        | nil => exact absurd heq (by simp)
        | cons e es => exact ⟨e, es, rfl⟩
      rw [List.map_cons, List.map_cons, List.cons.injEq] at heq
      rw [hinj d (hds d List.mem_cons_self) e (hes e List.mem_cons_self) heq.1,
        ih (fun x hx => hds x (List.mem_cons_of_mem _ hx)) es
          (fun x hx => hes x (List.mem_cons_of_mem _ hx)) heq.2]
  rw [hsame]

end Numeral
