import Acrn.GuestBoot

/-!
# The module of a tag

`get_mod_idx_by_tag` of `vboot_info.c`: the module whose string is the tag of a VM, which
`init_vm_boot_info` takes the kernel from. Next to the functions stand the addresses and the
elements of the array that they read.
-/

namespace Acrn

open ByteMem

/-! ## What is read -/

/-- The addresses that `strnlen_s` reads: the character is looked at before the limit is. -/
def strnlenSReads (m : HostMem) : ℕ → ℕ → List ℕ
  | str, 0 => [str]
  | str, maxlen + 1 => str :: if m str ≠ 0#8 then strnlenSReads m (str + 1) maxlen else []

/-- The addresses that the loop of `strncmp` reads. -/
def strncmpLoopReads (m : HostMem) (str1 str2 : ℕ) : ℕ → List ℕ
  | 0 => [str1, str2]
  | n + 1 =>
    str1 :: str2 ::
      if m str1 ≠ 0#8 ∧ m str2 ≠ 0#8 ∧ m str1 = m str2 then
        strncmpLoopReads m (str1 + 1) (str2 + 1) n
      else []

/-- The addresses that `strncmp` reads. -/
def strncmpReads (m : HostMem) (s1 s2 : ℕ) (n : BitVec 32) : List ℕ :=
  strncmpLoopReads m s1 s2 (n - 1#32).toNat

section

variable (m : HostMem) (mbi tag : ℕ)

/-- The condition of `get_mod_idx_by_tag` on a module. -/
def modMatches (i : ℕ) : Bool :=
  let tagLen := strnlenS m tag maxModTagLen
  decide (tagLen ≤ strnlenS m (mmString m mbi i) maxModTagLen) &&
    decide (strncmp m (mmString m mbi i) tag (BitVec.ofNat 32 tagLen) = 0) &&
    (m (mmString m mbi i + tagLen) == 0x0d#8 || m (mmString m mbi i + tagLen) == 0x0a#8 ||
      m (mmString m mbi i + tagLen) == 0#8)

/-- The addresses that `get_mod_idx_by_tag` reads for the string of a module. -/
def modReads (i : ℕ) : List ℕ :=
  let tagLen := strnlenS m tag maxModTagLen
  strnlenSReads m (mmString m mbi i) maxModTagLen ++
    if tagLen ≤ strnlenS m (mmString m mbi i) maxModTagLen then
      strncmpReads m (mmString m mbi i) tag (BitVec.ofNat 32 tagLen) ++
        if strncmp m (mmString m mbi i) tag (BitVec.ofNat 32 tagLen) = 0 then
          [mmString m mbi i + tagLen]
        else []
    else []

/-- The modules that the loop of `get_mod_idx_by_tag` looks at. -/
def modsLookedAt : List ℕ → List ℕ
  | [] => []
  | i :: is => if modMatches m mbi tag i then [i] else i :: modsLookedAt is

/-- The elements of `mods` that `init_vm_boot_info` uses: those that are looked at for the tag, and
the one that `init_vm_kernel_info` gets. -/
def modsUsed : List ℕ :=
  modsLookedAt m mbi tag (List.range (miModsCount m mbi)) ++ [getModIdxByTag m mbi tag]

end

/-! ## What is to be selected

This is stated of the strings in memory, without the functions of the source. `TagSelectable` is
the condition, again on the strings and the array alone. -/

/-- The string begins with the tag, and behind it stands NUL, CR or LF. -/
def CarriesTag (m : HostMem) (tag n str : ℕ) : Prop :=
  (∀ i < n, m (str + i) = m (tag + i)) ∧
    (m (str + n) = 0#8 ∨ m (str + n) = 0x0d#8 ∨ m (str + n) = 0x0a#8)

/-- The first module that carries the tag. -/
def FirstWithTag (m : HostMem) (mbi tag n i : ℕ) : Prop :=
  i < miModsCount m mbi ∧ CarriesTag m tag n (mmString m mbi i) ∧
    ∀ j < i, ¬CarriesTag m tag n (mmString m mbi j)

/-- **The module is selected exactly**, and nothing is read outside of the strings and the array. -/
structure SelectsExactly (m : HostMem) (mbi tag n : ℕ) : Prop where
  first : ∀ i, FirstWithTag m mbi tag n i → getModIdxByTag m mbi tag = i
  notFound : getModIdxByTag m mbi tag = invalidModIdx ↔
    ∀ i < miModsCount m mbi, ¬CarriesTag m tag n (mmString m mbi i)
  reads : ∀ i ∈ modsLookedAt m mbi tag (List.range (miModsCount m mbi)),
    ∀ k, IsString m (mmString m mbi i) k → ∀ a ∈ modReads m mbi tag i,
      (mmString m mbi i ≤ a ∧ a ≤ mmString m mbi i + k) ∨ (tag ≤ a ∧ a ≤ tag + n)
  used : ∀ i ∈ modsUsed m mbi tag, i < miModsCount m mbi

/-- When the selection is exact: the first module with the tag is not that of the number that stands
for none, and for an empty tag its string is empty; or there is no module with the tag, and there
are so many modules that the number that stands for none is that of one of them. -/
def TagSelectable (m : HostMem) (mbi tag n : ℕ) : Prop :=
  (∃ i, FirstWithTag m mbi tag n i ∧ i ≠ invalidModIdx ∧
      (n = 0 → m (mmString m mbi i) = 0#8)) ∨
    ((∀ i < miModsCount m mbi, ¬CarriesTag m tag n (mmString m mbi i)) ∧
      invalidModIdx < miModsCount m mbi)

/-! ## The comparison

`strncmp` is called with the length of the tag. For a tag of length 0 the limit wraps around, and
the comparison runs up to the end of both strings. -/

section Strings

variable {m : HostMem} {s1 s2 str tag n k a : ℕ}

theorem toInt_sub_eq_zero_iff {x y : BitVec 8} : x.toInt - y.toInt = 0 ↔ x = y := by
  rw [Int.sub_eq_zero, BitVec.toInt_inj]

/-- Up to a NUL of the second string, the strings are equal if all characters are. -/
theorem strncmpLoop_eq_zero_iff (h : ∀ i < k, m (s2 + i) ≠ 0#8) :
    strncmpLoop m s1 s2 k = 0 ↔ ∀ i ≤ k, m (s1 + i) = m (s2 + i) := by
  induction k generalizing s1 s2 with
  | zero =>
    rw [strncmpLoop, toInt_sub_eq_zero_iff]
    constructor
    · intro heq i hi
      rw [Nat.le_zero.mp hi]
      exact heq
    · intro heq
      exact heq 0 (Nat.le_refl 0)
  | succ k ih =>
    have hhead : m s2 ≠ 0#8 := h 0 k.succ_pos
    have htail : ∀ i < k, m (s2 + 1 + i) ≠ 0#8 := by
      intro i hi
      rw [Nat.add_assoc, Nat.add_comm 1]
      exact h (i + 1) (Nat.succ_lt_succ hi)
    have hsplit : (∀ i ≤ k + 1, m (s1 + i) = m (s2 + i)) ↔
        m s1 = m s2 ∧ ∀ i ≤ k, m (s1 + 1 + i) = m (s2 + 1 + i) := by
      constructor
      · intro heq
        refine ⟨heq 0 (Nat.zero_le _), fun i hi => ?_⟩
        rw [Nat.add_assoc, Nat.add_assoc, Nat.add_comm 1]
        exact heq (i + 1) (Nat.succ_le_succ hi)
      · rintro ⟨hzero, hsucc⟩ i hi
        cases i with
        | zero => exact hzero
        | succ i =>
          have heq := hsucc i (Nat.le_of_succ_le_succ hi)
          rw [Nat.add_assoc, Nat.add_assoc, Nat.add_comm 1] at heq
          exact heq
    rw [strncmpLoop, hsplit]
    by_cases heq : m s1 = m s2
    · rw [if_pos ⟨heq ▸ hhead, hhead, heq⟩, ih htail]
      exact (and_iff_right heq).symm
    · rw [if_neg fun h => heq h.2.2, toInt_sub_eq_zero_iff]
      exact iff_of_false heq fun h => heq h.1

/-- Without a limit an empty string is equal to an empty string alone. -/
theorem strncmpLoop_of_nul (h : m s2 = 0#8) : strncmpLoop m s1 s2 k = 0 ↔ m s1 = 0#8 := by
  have hdiff : strncmpLoop m s1 s2 k = (m s1).toInt - (m s2).toInt := by
    cases k with
    | zero => rfl
    | succ k => rw [strncmpLoop, if_neg fun hgo => hgo.2.1 h]
  rw [hdiff, toInt_sub_eq_zero_iff, h]

theorem toNat_limit (hn : n < maxModTagLen) (hpos : 0 < n) :
    (BitVec.ofNat 32 n - 1#32).toNat = n - 1 := by
  have hlt : n < 32 := hn
  have hval : (BitVec.ofNat 32 n).toNat = n := Nat.mod_eq_of_lt (by omega)
  have hle : 1#32 ≤ BitVec.ofNat 32 n := BitVec.le_def.mpr (hpos.trans_eq hval.symm)
  rw [BitVec.toNat_sub_of_le hle, hval]
  rfl

/-- What `strncmp` tells about a tag: that all of it is there, and, for an empty one, that the other
string is empty too. -/
theorem strncmp_tag_eq_zero_iff (htag : IsString m tag n) (hn : n < maxModTagLen) :
    strncmp m str tag (BitVec.ofNat 32 n) = 0 ↔
      (∀ i < n, m (str + i) = m (tag + i)) ∧ (n = 0 → m str = 0#8) := by
  rw [strncmp]
  rcases Nat.eq_zero_or_pos n with hzero | hpos
  · have hnul : m tag = 0#8 := by
      have hend := htag.2
      rwa [hzero] at hend
    rw [strncmpLoop_of_nul hnul, hzero]
    exact ⟨fun h => ⟨nofun, fun _ => h⟩, fun h => h.2 rfl⟩
  · rw [toNat_limit hn hpos, strncmpLoop_eq_zero_iff fun i hi => htag.1 i (by omega)]
    constructor
    · intro h
      exact ⟨fun i hi => h i (by omega), fun hzero => by omega⟩
    · rintro ⟨h, -⟩ i hi
      exact h i (by omega)

/-! ## The addresses

The functions stop at a NUL, so what they read is bounded by the first NUL of the string whatever
comes behind it. -/

theorem strnlenSReads_le (h : IsString m str n) (ha : a ∈ strnlenSReads m str k) :
    str ≤ a ∧ a ≤ str + n := by
  induction k generalizing str n with
  | zero =>
    rw [List.mem_singleton.mp ha]
    exact ⟨Nat.le_refl _, Nat.le_add_right _ _⟩
  | succ k ih =>
    rw [strnlenSReads] at ha
    obtain rfl | ha := List.mem_cons.mp ha
    · exact ⟨Nat.le_refl _, Nat.le_add_right _ _⟩
    · split at ha
      · next hhead =>
        obtain ⟨n, rfl⟩ : ∃ l, n = l + 1 := by
          cases n with
          | zero => exact absurd h.2 hhead
          | succ l => exact ⟨l, rfl⟩
        have hle := ih h.tail ha
        omega
      · cases ha

theorem exists_tail (h : IsString m str n) (hne : m str ≠ 0#8) :
    ∃ l, n = l + 1 ∧ IsString m (str + 1) l := by
  cases n with
  | zero => exact absurd h.2 hne
  | succ l => exact ⟨l, rfl, h.tail⟩

theorem strncmpLoopReads_le {n' : ℕ} (h : IsString m s1 n) (h' : IsString m s2 n')
    (ha : a ∈ strncmpLoopReads m s1 s2 k) :
    (s1 ≤ a ∧ a ≤ s1 + n) ∨ (s2 ≤ a ∧ a ≤ s2 + n') := by
  induction k generalizing s1 s2 n n' with
  | zero =>
    obtain rfl | ha := List.mem_cons.mp ha
    · exact .inl ⟨Nat.le_refl _, Nat.le_add_right _ _⟩
    · rw [List.mem_singleton.mp ha]
      exact .inr ⟨Nat.le_refl _, Nat.le_add_right _ _⟩
  | succ k ih =>
    rw [strncmpLoopReads] at ha
    obtain rfl | ha := List.mem_cons.mp ha
    · exact .inl ⟨Nat.le_refl _, Nat.le_add_right _ _⟩
    · obtain rfl | ha := List.mem_cons.mp ha
      · exact .inr ⟨Nat.le_refl _, Nat.le_add_right _ _⟩
      · split at ha
        · next hgo =>
          obtain ⟨l, rfl, htail⟩ := exists_tail h hgo.1
          obtain ⟨l', rfl, htail'⟩ := exists_tail h' hgo.2.1
          obtain hle | hle := ih htail htail' ha
          · exact .inl (by omega)
          · exact .inr (by omega)
        · cases ha

end Strings

/-! ## The selection -/

section Selection

variable {m : HostMem} {mbi tag n i : ℕ}

theorem strnlenS_tag (htag : IsString m tag n) (hn : n < maxModTagLen) :
    strnlenS m tag maxModTagLen = n := strnlenS_eq htag hn.le

/-- The condition of the function, and what it misses: for an empty tag only an empty string is
accepted. -/
theorem modMatches_iff (htag : IsString m tag n) (hn : n < maxModTagLen) :
    modMatches m mbi tag i = true ↔
      CarriesTag m tag n (mmString m mbi i) ∧ (n = 0 → m (mmString m mbi i) = 0#8) := by
  rw [modMatches, strnlenS_tag htag hn]
  simp only [Bool.and_eq_true, Bool.or_eq_true, decide_eq_true_eq, beq_iff_eq]
  rw [strncmp_tag_eq_zero_iff htag hn, CarriesTag]
  constructor
  · rintro ⟨⟨-, heq, hempty⟩, hend⟩
    exact ⟨⟨heq, by tauto⟩, hempty⟩
  · rintro ⟨⟨heq, hend⟩, hempty⟩
    refine ⟨⟨le_strnlenS_iff.mpr ⟨hn.le, fun j hj => ?_⟩, heq, hempty⟩, by tauto⟩
    rw [heq j hj]
    exact htag.1 j hj

/-- `get_mod_idx_by_tag` gives the first module that meets its condition. -/
theorem getModIdxByTag_eq :
    getModIdxByTag m mbi tag =
      ((List.range (miModsCount m mbi)).find? (modMatches m mbi tag)).getD invalidModIdx := rfl

theorem getModIdxByTag_of_first (hi : i < miModsCount m mbi) (h : modMatches m mbi tag i = true)
    (hfirst : ∀ j < i, ¬modMatches m mbi tag j = true) : getModIdxByTag m mbi tag = i := by
  have hfind : (List.range (miModsCount m mbi)).find? (modMatches m mbi tag) = some i := by
    refine List.find?_range_eq_some.mpr ⟨h, List.mem_range.mpr hi, fun j hj => ?_⟩
    rw [Bool.not_eq_true', ← Bool.not_eq_true]
    exact hfirst j hj
  rw [getModIdxByTag_eq, hfind, Option.getD_some]

theorem getModIdxByTag_of_none (h : ∀ i < miModsCount m mbi, ¬modMatches m mbi tag i = true) :
    getModIdxByTag m mbi tag = invalidModIdx := by
  have hfind : (List.range (miModsCount m mbi)).find? (modMatches m mbi tag) = none := by
    refine List.find?_eq_none.mpr fun i hi => ?_
    exact h i (List.mem_range.mp hi)
  rw [getModIdxByTag_eq, hfind, Option.getD_none]

theorem modMatches_of_getModIdxByTag (hne : getModIdxByTag m mbi tag ≠ invalidModIdx) :
    modMatches m mbi tag (getModIdxByTag m mbi tag) = true := by
  rw [getModIdxByTag_eq] at hne ⊢
  cases hfind : (List.range (miModsCount m mbi)).find? (modMatches m mbi tag) with
  | none =>
    rw [hfind] at hne
    exact absurd rfl hne
  | some i => exact List.find?_some hfind

theorem mem_of_mem_modsLookedAt {l : List ℕ} (h : i ∈ modsLookedAt m mbi tag l) : i ∈ l := by
  induction l with
  | nil => exact h
  | cons j l ih =>
    rw [modsLookedAt] at h
    split at h
    · rw [List.mem_singleton.mp h]
      exact List.mem_cons_self
    · obtain rfl | h := List.mem_cons.mp h
      · exact List.mem_cons_self
      · exact List.mem_cons_of_mem j (ih h)

/-- No byte of a string is read behind its NUL. -/
theorem modReads_le {k a : ℕ} (htag : IsString m tag n) (hn : n < maxModTagLen)
    (hstr : IsString m (mmString m mbi i) k) (ha : a ∈ modReads m mbi tag i) :
    (mmString m mbi i ≤ a ∧ a ≤ mmString m mbi i + k) ∨ (tag ≤ a ∧ a ≤ tag + n) := by
  rw [modReads, strnlenS_tag htag hn] at ha
  obtain ha | ha := List.mem_append.mp ha
  · exact .inl (strnlenSReads_le hstr ha)
  · split at ha
    · next hlong =>
      obtain ha | ha := List.mem_append.mp ha
      · exact strncmpLoopReads_le hstr htag ha
      · split at ha
        · rw [List.mem_singleton.mp ha]
          have hle : n ≤ k := by
            by_contra hlt
            exact (le_strnlenS_iff.mp hlong).2 k (Nat.lt_of_not_le hlt) hstr.2
          exact .inl ⟨Nat.le_add_right _ _, Nat.add_le_add_left hle _⟩
        · cases ha
    · cases ha

/-- There is a first module with the tag, if there is one at all. -/
theorem exists_firstWithTag (h : i < miModsCount m mbi)
    (htag : CarriesTag m tag n (mmString m mbi i)) : ∃ j, FirstWithTag m mbi tag n j := by
  classical
  have hex : ∃ j, j < miModsCount m mbi ∧ CarriesTag m tag n (mmString m mbi j) := ⟨i, h, htag⟩
  refine ⟨Nat.find hex, (Nat.find_spec hex).1, (Nat.find_spec hex).2, fun j hj hcarries => ?_⟩
  exact Nat.find_min hex hj ⟨hj.trans (Nat.find_spec hex).1, hcarries⟩

theorem FirstWithTag.unique {j : ℕ} (hi : FirstWithTag m mbi tag n i)
    (hj : FirstWithTag m mbi tag n j) : i = j := by
  rcases Nat.lt_trichotomy i j with hlt | heq | hgt
  · exact absurd hi.2.1 (hj.2.2 i hlt)
  · exact heq
  · exact absurd hj.2.1 (hi.2.2 j hgt)

/-- The elements that are used are those looked at, which are in the array, and the result. -/
theorem used_lt (h : getModIdxByTag m mbi tag < miModsCount m mbi) :
    ∀ i ∈ modsUsed m mbi tag, i < miModsCount m mbi := by
  intro i hi
  obtain hi | hi := List.mem_append.mp hi
  · exact List.mem_range.mp (mem_of_mem_modsLookedAt hi)
  · rw [List.mem_singleton.mp hi]
    exact h

/-- **Boot modules are selected exactly** when the first module with the tag is one that the
function accepts, and otherwise only among more than 65535 modules. -/
theorem selectsExactly_iff (m : HostMem) (mbi tag n : ℕ) (htag : IsString m tag n)
    (hn : n < maxModTagLen) : SelectsExactly m mbi tag n ↔ TagSelectable m mbi tag n := by
  have hmatch : ∀ i, modMatches m mbi tag i = true ↔
      CarriesTag m tag n (mmString m mbi i) ∧ (n = 0 → m (mmString m mbi i) = 0#8) :=
    fun i => modMatches_iff htag hn
  constructor
  · intro h
    have hused : getModIdxByTag m mbi tag < miModsCount m mbi :=
      h.used _ (List.mem_append_right _ (List.mem_singleton_self _))
    by_cases hnone : ∀ i < miModsCount m mbi, ¬CarriesTag m tag n (mmString m mbi i)
    · rw [h.notFound.mpr hnone] at hused
      exact .inr ⟨hnone, hused⟩
    · obtain ⟨j, hj, hcarries⟩ : ∃ j < miModsCount m mbi,
          CarriesTag m tag n (mmString m mbi j) := by
        push Not at hnone
        exact hnone
      obtain ⟨i, hi⟩ := exists_firstWithTag hj hcarries
      have hresult := h.first i hi
      have hne : getModIdxByTag m mbi tag ≠ invalidModIdx := fun heq => hnone (h.notFound.mp heq)
      have hmatches := modMatches_of_getModIdxByTag hne
      rw [hresult] at hne hmatches
      exact .inl ⟨i, hi, hne, ((hmatch i).mp hmatches).2⟩
  · rintro (⟨i, hi, hne, hempty⟩ | ⟨hnone, hmany⟩)
    · have hresult : getModIdxByTag m mbi tag = i := by
        refine getModIdxByTag_of_first hi.1 ((hmatch i).mpr ⟨hi.2.1, hempty⟩)
          fun j hj hmatches => ?_
        exact hi.2.2 j hj ((hmatch j).mp hmatches).1
      refine ⟨fun j hj => hresult.trans (hi.unique hj), ?_, ?_, used_lt (hresult.trans_lt hi.1)⟩
      · rw [hresult]
        exact iff_of_false hne fun hnone => hnone i hi.1 hi.2.1
      · exact fun j _ k hstr a ha => modReads_le htag hn hstr ha
    · have hresult : getModIdxByTag m mbi tag = invalidModIdx :=
        getModIdxByTag_of_none fun i hi hmatches => hnone i hi ((hmatch i).mp hmatches).1
      refine ⟨fun j hj => absurd hj.2.1 (hnone j hj.1), iff_of_true hresult hnone, ?_,
        used_lt (hresult.trans_lt hmany)⟩
      exact fun j _ k hstr a ha => modReads_le htag hn hstr ha

/-- One module, with a string of one character at `0x200000`, and a tag of one character. -/
def tagSample (string tag : BitVec 8) : HostMem :=
  let m := writeLE (fun _ => 0#8) (0x10000 + 20) 4 1
  let m := writeLE m (0x10000 + 24) 4 0x11000
  let m := writeLE m (0x11000 + 8) 4 0x200000
  Function.update (Function.update m 0x200000 string) 0x300000 tag

/-- Tag and string are the same: module 0 is selected. -/
theorem selectsExactly_same :
    SelectsExactly (tagSample 0x61#8 0x61#8) 0x10000 0x300000 1 := by
  refine (selectsExactly_iff _ _ _ _ ⟨by decide, by decide⟩ (by decide)).mpr (.inl ⟨0, ?_, ?_, ?_⟩)
  · refine ⟨by decide, ⟨by decide, .inl (by decide)⟩, nofun⟩
  · decide
  · nofun

/-- No module has the tag `b`, and the index that stands for none is used. For an empty tag, module
0 carries it in front of a CR, and is not selected. -/
theorem selectsExactly_fails :
    (IsString (tagSample 0x61#8 0x62#8) 0x300000 1 ∧
      ¬SelectsExactly (tagSample 0x61#8 0x62#8) 0x10000 0x300000 1) ∧
    IsString (tagSample 0x0d#8 0#8) 0x300000 0 ∧
      ¬SelectsExactly (tagSample 0x0d#8 0#8) 0x10000 0x300000 0 := by
  have hb : IsString (tagSample 0x61#8 0x62#8) 0x300000 1 := ⟨by decide, by decide⟩
  have hempty : IsString (tagSample 0x0d#8 0#8) 0x300000 0 := ⟨nofun, by decide⟩
  have hone : ∀ string tag, miModsCount (tagSample string tag) 0x10000 = 1 := fun _ _ => rfl
  refine ⟨⟨hb, fun h => ?_⟩, hempty, fun h => ?_⟩
  · have hnone : getModIdxByTag (tagSample 0x61#8 0x62#8) 0x10000 0x300000 = invalidModIdx := by
      refine getModIdxByTag_of_none fun i hi hmatches => ?_
      rw [hone, Nat.lt_one_iff] at hi
      have hcarries := ((modMatches_iff hb (by decide)).mp hmatches).1.1 0 Nat.one_pos
      rw [hi] at hcarries
      exact absurd hcarries (by decide)
    have hused := h.used _ (List.mem_append_right _ (List.mem_singleton_self _))
    rw [hnone, hone] at hused
    exact absurd hused (by decide)
  · have hfirst : FirstWithTag (tagSample 0x0d#8 0#8) 0x10000 0x300000 0 0 :=
      ⟨by decide, ⟨nofun, .inr (.inl (by decide))⟩, nofun⟩
    have hnone : getModIdxByTag (tagSample 0x0d#8 0#8) 0x10000 0x300000 = invalidModIdx := by
      refine getModIdxByTag_of_none fun i hi hmatches => ?_
      rw [hone, Nat.lt_one_iff] at hi
      have hnul := ((modMatches_iff hempty (by decide)).mp hmatches).2 rfl
      rw [hi] at hnul
      exact absurd hnul (by decide)
    exact absurd ((h.first 0 hfirst).symm.trans hnone) (by decide)

end Selection

end Acrn
