import Mathlib
import FtpControl.Text.Blank
import FtpControl.Text.Utf8

/-!
This module contains the theory of decoding. What has been encoded is decoded to itself, and no
character comes from fewer bytes than its encoding has.
-/

namespace FtpControl.Text.Utf8

theorem toNat_ofNat {n : Nat} (h : n < 256) : (UInt8.ofNat n).toNat = n := by
  rw [UInt8.toNat_ofNat']
  exact Nat.mod_eq_of_lt h

def continuation (n : Nat) : UInt8 :=
  UInt8.ofNat (n % 64 + 128)

theorem toNat_continuation (n : Nat) : (continuation n).toNat = n % 64 + 128 := by
  apply toNat_ofNat
  omega

theorem contains_continuation (r : Range) (n : Nat)
    : r.contains (continuation n) = true
        ↔
      r.low.toNat ≤ n % 64 + 128 ∧ n % 64 + 128 ≤ r.high.toNat := by
  unfold Range.contains
  rw [Bool.and_eq_true, decide_eq_true_eq, decide_eq_true_eq, UInt8.le_iff_toNat_le,
    UInt8.le_iff_toNat_le, toNat_continuation]

theorem toNat_continuation_mod (n : Nat) : (continuation n).toNat % 64 = n % 64 := by
  rw [toNat_continuation]
  omega

theorem step_last {bits : Nat} {next : Range} {n : Nat}
    (h : next.contains (continuation n) = true)
    : step (.inside bits next []) (continuation n)
        =
      (.start, [Char.ofNat (bits * 64 + n % 64)]) := by
  rw [step, if_pos h, toNat_continuation_mod]

theorem step_further {bits : Nat} {next further : Range} {later : List Range} {n : Nat}
    (h : next.contains (continuation n) = true)
    : step (.inside bits next (further :: later)) (continuation n)
        =
      (.inside (bits * 64 + n % 64) further later, []) := by
  rw [step, if_pos h, toNat_continuation_mod]

theorem contains_any_continuation (n : Nat) : Range.any.contains (continuation n) = true := by
  rw [contains_continuation]
  change 128 ≤ n % 64 + 128 ∧ n % 64 + 128 ≤ 191
  omega

theorem lead_of_two {n : Nat} (hlow : 2 ≤ n) (hhigh : n < 32)
    : lead (UInt8.ofNat (n + 192)) = (.inside n .any [], []) := by
  unfold lead
  rw [toNat_ofNat (by omega)]
  dsimp only
  rw [if_neg (by omega), if_pos (by simp; omega)]
  congr
  omega

theorem exists_lead_of_three {v : Nat} (hlow : 2048 ≤ v) (hhigh : v < 65536)
    (hvalid : v < 55296 ∨ 57343 < v)
    : ∃ next,
        lead (UInt8.ofNat (v / 4096 + 224)) = (.inside (v / 4096) next [.any], [])
          ∧
        next.contains (continuation (v / 64)) = true := by
  -- The ranges after E0 and ED leave out what would be overlong and the surrogates.
  unfold lead
  rw [toNat_ofNat (by omega)]
  dsimp only
  rw [if_neg (by omega), if_neg (by simp)]
  by_cases hfirst : v / 4096 = 0
  . refine ⟨{ low := 0xA0, high := 0xBF }, ?_, ?_⟩
    . rw [hfirst]
      rfl
    . rw [contains_continuation]
      change 160 ≤ v / 64 % 64 + 128 ∧ v / 64 % 64 + 128 ≤ 191
      omega
  . rw [if_neg (by simp; omega)]
    by_cases hsurrogate : v / 4096 = 13
    . refine ⟨{ low := 0x80, high := 0x9F }, ?_, ?_⟩
      . rw [hsurrogate]
        rfl
      . rw [contains_continuation]
        change 128 ≤ v / 64 % 64 + 128 ∧ v / 64 % 64 + 128 ≤ 159
        omega
    . rw [if_neg (by simp; omega), if_pos (by simp; omega)]
      refine ⟨.any, ?_, contains_any_continuation _⟩
      congr
      omega

theorem exists_lead_of_four {v : Nat} (hlow : 65536 ≤ v) (hhigh : v < 1114112)
    : ∃ next,
        lead (UInt8.ofNat (v / 262144 + 240)) = (.inside (v / 262144) next [.any, .any], [])
          ∧
        next.contains (continuation (v / 4096)) = true := by
  unfold lead
  rw [toNat_ofNat (by omega)]
  dsimp only
  rw [if_neg (by omega), if_neg (by simp), if_neg (by simp), if_neg (by simp), if_neg (by simp)]
  by_cases hfirst : v / 262144 = 0
  . refine ⟨{ low := 0x90, high := 0xBF }, ?_, ?_⟩
    . rw [hfirst]
      rfl
    . rw [contains_continuation]
      change 144 ≤ v / 4096 % 64 + 128 ∧ v / 4096 % 64 + 128 ≤ 191
      omega
  . rw [if_neg (by simp; omega)]
    by_cases hlast : v / 262144 = 4
    . refine ⟨{ low := 0x80, high := 0x8F }, ?_, ?_⟩
      . rw [hlast]
        rfl
      . rw [contains_continuation]
        change 128 ≤ v / 4096 % 64 + 128 ∧ v / 4096 % 64 + 128 ≤ 143
        omega
    . rw [if_neg (by simp; omega), if_pos (by simp; omega)]
      refine ⟨.any, ?_, contains_any_continuation _⟩
      congr
      omega

theorem decodeFrom_of_two {v : Nat} (hlow : 128 ≤ v) (hhigh : v < 2048) (bytes : List UInt8)
    : decodeFrom .start (UInt8.ofNat (v / 64 + 192) :: continuation v :: bytes)
        =
      Char.ofNat v :: decodeFrom .start bytes := by
  have hlead := lead_of_two (n := v / 64) (by omega) (by omega)
  have hsplit : v / 64 * 64 + v % 64 = v := by omega
  rw [decodeFrom, step, hlead, decodeFrom, step_last (contains_any_continuation v)]
  dsimp only
  rw [hsplit]
  rfl

theorem decodeFrom_of_three {v : Nat} (hlow : 2048 ≤ v) (hhigh : v < 65536)
    (hvalid : v < 55296 ∨ 57343 < v) (bytes : List UInt8)
    : decodeFrom .start
        (UInt8.ofNat (v / 4096 + 224) :: continuation (v / 64) :: continuation v :: bytes)
        =
      Char.ofNat v :: decodeFrom .start bytes := by
  obtain ⟨next, hlead, hnext⟩ := exists_lead_of_three hlow hhigh hvalid
  have hsplit : (v / 4096 * 64 + v / 64 % 64) * 64 + v % 64 = v := by omega
  rw [decodeFrom, step, hlead, decodeFrom, step_further hnext]
  dsimp only
  rw [decodeFrom, step_last (contains_any_continuation v)]
  dsimp only
  rw [hsplit]
  rfl

theorem decodeFrom_of_four {v : Nat} (hlow : 65536 ≤ v) (hhigh : v < 1114112) (bytes : List UInt8)
    : decodeFrom .start
        (UInt8.ofNat (v / 262144 + 240) :: continuation (v / 4096) :: continuation (v / 64)
          :: continuation v :: bytes)
        =
      Char.ofNat v :: decodeFrom .start bytes := by
  obtain ⟨next, hlead, hnext⟩ := exists_lead_of_four hlow hhigh
  have hsplit : ((v / 262144 * 64 + v / 4096 % 64) * 64 + v / 64 % 64) * 64 + v % 64 = v := by
    omega
  rw [decodeFrom, step, hlead, decodeFrom, step_further hnext]
  dsimp only
  rw [decodeFrom, step_further (contains_any_continuation (v / 64))]
  dsimp only
  rw [decodeFrom, step_last (contains_any_continuation v)]
  dsimp only
  rw [hsplit]
  rfl

theorem decodeFrom_utf8EncodeChar (c : Char) (bytes : List UInt8)
    : decodeFrom .start (String.utf8EncodeChar c ++ bytes) = c :: decodeFrom .start bytes := by
  have hc : Char.ofNat c.val.toNat = c := Char.ofNat_toNat c
  have hvalid : c.val.toNat < 55296 ∨ 57343 < c.val.toNat ∧ c.val.toNat < 1114112 := c.valid
  rw [String.utf8EncodeChar]
  generalize c.val.toNat = v at *
  rw [← hc]
  split
  . next hone =>
    have hlead : lead (UInt8.ofNat v) = (.start, [Char.ofNat v]) := by
      unfold lead
      rw [toNat_ofNat (by omega)]
      exact if_pos (by omega)
    rw [List.singleton_append, decodeFrom, step, hlead]
    rfl
  . split
    . next htwo =>
      rw [show v / 64 % 32 = v / 64 by omega]
      exact decodeFrom_of_two (by omega) (by omega) bytes
    . split
      . next hthree =>
        rw [show v / 4096 % 16 = v / 4096 by omega]
        exact decodeFrom_of_three (by omega) (by omega) (by omega) bytes
      . next hfour =>
        rw [show v / 262144 % 8 = v / 262144 by omega]
        exact decodeFrom_of_four (by omega) (by omega) bytes

theorem decodeFrom_flatMap (cs : List Char) (bytes : List UInt8)
    : decodeFrom .start (cs.flatMap String.utf8EncodeChar ++ bytes)
        =
      cs ++ decodeFrom .start bytes := by
  induction cs with
  | nil => rfl
  | cons c cs ih =>
    rw [List.flatMap_cons, List.append_assoc, decodeFrom_utf8EncodeChar, ih]
    rfl

theorem decodeString_encodeString (s : String) : decodeString (encodeString s) = s := by
  have hdecode := decodeFrom_flatMap s.toList []
  rw [List.append_nil] at hdecode
  unfold decodeString decode encodeString
  rw [hdecode, decodeFrom, finish, List.append_nil, String.ofList_toList]

theorem decode?_encodeString (s : String) : decode? (encodeString s) = some s := by
  have hdecode := String.toList_inj.2 (decodeString_encodeString s)
  rw [decodeString, String.toList_ofList] at hdecode
  unfold decode?
  dsimp only
  rw [hdecode, ← encodeString, if_pos rfl, String.ofList_toList]

def weight (cs : List Char) : Nat :=
  (cs.map fun c => if c = replacement then 0 else c.utf8Size).sum

@[simp]
theorem weight_nil : weight [] = 0 := rfl

@[simp]
theorem weight_cons (c : Char) (cs : List Char)
    : weight (c :: cs) = (if c = replacement then 0 else c.utf8Size) + weight cs := by
  unfold weight
  rw [List.map_cons, List.sum_cons]

@[simp]
theorem weight_append (first second : List Char)
    : weight (first ++ second) = weight first + weight second := by
  unfold weight
  rw [List.map_append, List.sum_append]

theorem weight_singleton_le (c : Char) : weight [c] ≤ c.utf8Size := by
  rw [weight_cons, weight_nil]
  split <;> omega

theorem val_ofNat_le (n : Nat) : (Char.ofNat n).val.toNat ≤ n := by
  unfold Char.ofNat
  split
  . apply Nat.le_refl
  . apply Nat.zero_le

theorem utf8Size_ofNat_le {n : Nat}
    : (n < 0x80 → (Char.ofNat n).utf8Size ≤ 1)
        ∧
      (n < 0x800 → (Char.ofNat n).utf8Size ≤ 2)
        ∧
      (n < 0x10000 → (Char.ofNat n).utf8Size ≤ 3) := by
  have hval := val_ofNat_le n
  rw [← String.length_utf8EncodeChar, String.utf8EncodeChar]
  split
  . simp
  . split
    . simp
      omega
    . split
      . simp
        omega
      . omega

def State.Holds (n : Nat) : State → Prop
  | start => n = 0
  | inside bits _ later =>
    ∀ m, m < (bits + 1) * 64 ^ (later.length + 1)
      → (Char.ofNat m).utf8Size ≤ n + later.length + 1

theorem holds_inside {bits : Nat} (next : Range) {later : List Range}
    (h : later = [] ∧ bits < 32 ∨ later.length = 1 ∧ bits < 16 ∨ later.length = 2)
    : (State.inside bits next later).Holds 1 := by
  intro m hm
  obtain ⟨_, htwo, hthree⟩ := utf8Size_ofNat_le (n := m)
  rcases h with ⟨rfl, hbits⟩ | ⟨hlater, hbits⟩ | hlater
  . rw [List.length_nil] at hm ⊢
    apply htwo
    omega
  . rw [hlater] at hm ⊢
    apply hthree
    omega
  . rw [hlater]
    apply Char.utf8Size_le_four

theorem holds_lead (b : UInt8) : ∃ n, (lead b).1.Holds n ∧ weight (lead b).2 + n ≤ 1 := by
  have hinside : ∀ {bits : Nat} {next : Range} {later : List Range},
      later = [] ∧ bits < 32 ∨ later.length = 1 ∧ bits < 16 ∨ later.length = 2
        → ∃ n, (State.inside bits next later).Holds n ∧ weight [] + n ≤ 1 := by
    intro bits next later h
    exact ⟨1, holds_inside next h, Nat.le_refl 1⟩
  unfold lead
  dsimp only
  split
  . next hascii =>
    refine ⟨0, rfl, ?_⟩
    exact Nat.le_trans (weight_singleton_le _) (utf8Size_ofNat_le.1 hascii)
  . split
    . exact hinside (.inl ⟨rfl, by omega⟩)
    . split
      . exact hinside (.inr (.inl ⟨rfl, by omega⟩))
      . split
        . exact hinside (.inr (.inl ⟨rfl, by omega⟩))
        . split
          . exact hinside (.inr (.inl ⟨rfl, by omega⟩))
          . split
            . exact hinside (.inr (.inr rfl))
            . split
              . exact hinside (.inr (.inr rfl))
              . split
                . exact hinside (.inr (.inr rfl))
                . exact ⟨0, rfl, by simp⟩

theorem holds_step {state : State} {n : Nat} (h : state.Holds n) (b : UInt8)
    : ∃ m, (step state b).1.Holds m ∧ weight (step state b).2 + m ≤ n + 1 := by
  obtain ⟨m, hlead, hweight⟩ := holds_lead b
  cases state with
  | start =>
    rw [step]
    exact ⟨m, hlead, by omega⟩
  | inside bits next later =>
    have hb : b.toNat % 0x40 < 0x40 := Nat.mod_lt _ (by omega)
    by_cases hnext : next.contains b = true
    . rw [step, if_pos hnext]
      cases later with
      | nil =>
        refine ⟨0, rfl, ?_⟩
        apply Nat.le_trans (weight_singleton_le _)
        apply h
        rw [List.length_nil]
        omega
      | cons further rest =>
        refine ⟨n + 1, ?_, by simp⟩
        intro number hnumber
        have hsize := h number
        rw [List.length_cons, Nat.pow_succ] at hsize
        rw [Nat.add_right_comm n 1]
        apply hsize
        apply Nat.lt_of_lt_of_le hnumber
        rw [Nat.mul_comm (64 ^ _) 64, ← Nat.mul_assoc]
        apply Nat.mul_le_mul_right
        omega
    . rw [step, if_neg hnext]
      refine ⟨m, hlead, ?_⟩
      simp
      omega

theorem weight_decodeFrom_le {state : State} {n : Nat} (h : state.Holds n) (bytes : List UInt8)
    : weight (decodeFrom state bytes) ≤ n + bytes.length := by
  induction bytes generalizing state n with
  | nil => cases state <;> simp [decodeFrom, finish]
  | cons b bytes ih =>
    obtain ⟨m, hstep, hweight⟩ := holds_step h b
    have hrest := ih hstep
    rw [decodeFrom, weight_append, List.length_cons]
    omega

theorem weight_decode_le (bytes : List UInt8) : weight (decode bytes) ≤ bytes.length := by
  have hstart : State.start.Holds 0 := rfl
  have hdecode := weight_decodeFrom_le hstart bytes
  rwa [Nat.zero_add] at hdecode

/-- What the first bytes settle stays in front of whatever the other bytes give. -/
theorem exists_decodeFrom_append (state : State) (first : List UInt8)
    : ∃ settled next, ∀ second,
        decodeFrom state (first ++ second) = settled ++ decodeFrom next second := by
  induction first generalizing state with
  | nil => exact ⟨[], state, fun _ => rfl⟩
  | cons b first ih =>
    obtain ⟨settled, next, hdecode⟩ := ih (step state b).1
    refine ⟨(step state b).2 ++ settled, next, fun second => ?_⟩
    rw [List.cons_append, decodeFrom, hdecode, List.append_assoc]

theorem isBlank_replacement : isBlank replacement = false := by decide

theorem finish_eq (state : State) : finish state = [] ∨ finish state = [replacement] := by
  cases state with
  | start => exact .inl rfl
  | inside bits next later => exact .inr rfl

theorem decodeFrom_append_lf (state : State) (bytes : List UInt8)
    : decodeFrom state (bytes ++ [0x0A]) = decodeFrom state bytes ++ ['\n'] := by
  obtain ⟨settled, next, hdecode⟩ := exists_decodeFrom_append state bytes
  have hbytes := hdecode []
  rw [List.append_nil] at hbytes
  rw [hdecode, hbytes, decodeFrom, decodeFrom, decodeFrom, step_lf, List.append_assoc]
  simp [finish]

theorem length_encodeString (s : String) : (encodeString s).length = s.utf8ByteSize := by
  unfold encodeString
  rw [← String.ofList_toList (s := s), String.utf8ByteSize_ofList, String.toList_ofList]
  induction s.toList with
  | nil => rfl
  | cons c cs ih =>
    rw [List.flatMap_cons, List.length_append, ih, String.length_utf8EncodeChar,
      String.utf8Len_cons, Nat.add_comm]

theorem weight_eq_utf8Len {cs : List Char} (h : replacement ∉ cs)
    : weight cs = String.utf8Len cs := by
  induction cs with
  | nil => rfl
  | cons c cs ih =>
    rw [List.mem_cons, not_or] at h
    rw [weight_cons, if_neg (Ne.symm h.1), ih h.2, String.utf8Len_cons, Nat.add_comm]

theorem weight_toList {s : String} (h : replacement ∉ s.toList)
    : weight s.toList = s.utf8ByteSize := by
  rw [weight_eq_utf8Len h, ← String.utf8ByteSize_ofList, String.ofList_toList]

theorem length_le_weight {cs : List Char} (h : replacement ∉ cs) : cs.length ≤ weight cs := by
  induction cs with
  | nil => apply Nat.le_refl
  | cons c cs ih =>
    rw [List.mem_cons, not_or] at h
    have hpos := c.utf8Size_pos
    have hrest := ih h.2
    rw [weight_cons, if_neg (Ne.symm h.1), List.length_cons]
    omega

theorem eq_lf_of_mem_utf8EncodeChar {c : Char} (h : 0x0A ∈ String.utf8EncodeChar c)
    : c = '\n' := by
  have hbyte : ∀ {n : Nat}, n < 256 → (0x0A : UInt8) = UInt8.ofNat n → n = 10 := by
    intro n hn heq
    rw [← toNat_ofNat hn, ← heq]
    rfl
  rw [String.utf8EncodeChar] at h
  split at h
  . next hone =>
    have hval := hbyte (by omega) (List.mem_singleton.1 h)
    rw [← Char.ofNat_toNat c, Char.toNat, hval]
  . -- All bytes of a longer encoding are beyond ASCII.
    exfalso
    split at h
    . simp only [List.mem_cons, List.not_mem_nil, or_false] at h
      rcases h with h | h
      all_goals
        have hten := hbyte (by omega) h
        omega
    . split at h
      . simp only [List.mem_cons, List.not_mem_nil, or_false] at h
        rcases h with h | h | h
        all_goals
          have hten := hbyte (by omega) h
          omega
      . simp only [List.mem_cons, List.not_mem_nil, or_false] at h
        rcases h with h | h | h | h
        all_goals
          have hten := hbyte (by omega) h
          omega

theorem lf_not_mem_encodeString {s : String} (h : '\n' ∉ s.toList) : 0x0A ∉ encodeString s := by
  intro hmem
  obtain ⟨c, hc, hbyte⟩ := List.mem_flatMap.1 hmem
  rw [eq_lf_of_mem_utf8EncodeChar hbyte] at hc
  exact h hc

def State.Beyond : State → Prop
  | start => True
  | inside bits next later =>
    (later = [] → 1 ≤ bits)
      ∧
    ∀ b, next.contains b = true → 1 ≤ bits * 0x40 + b.toNat % 0x40

theorem beyond_inside {bits : Nat} (h : 1 ≤ bits) (next : Range) (later : List Range)
    : (State.inside bits next later).Beyond := by
  constructor
  . exact fun _ => h
  . intro b _
    omega

theorem beyond_inside_zero {next : Range} (hlow : 0x90 ≤ next.low) (hhigh : next.high ≤ 0xBF)
    (further : Range) (later : List Range)
    : (State.inside 0 next (further :: later)).Beyond := by
  refine ⟨nofun, ?_⟩
  intro b hb
  simp only [Range.contains, Bool.and_eq_true, decide_eq_true_eq, UInt8.le_iff_toNat_le] at *
  change 0x90 ≤ next.low.toNat at hlow
  change next.high.toNat ≤ 0xBF at hhigh
  omega

theorem beyond_lead (b : UInt8) : (lead b).1.Beyond := by
  unfold lead
  dsimp only
  simp only [Bool.and_eq_true, decide_eq_true_eq, beq_iff_eq]
  split
  . trivial
  . split
    . exact beyond_inside (by omega) _ _
    . split
      . exact beyond_inside_zero (by decide) (by decide) _ _
      . split
        . exact beyond_inside (by omega) _ _
        . split
          . exact beyond_inside (by omega) _ _
          . split
            . exact beyond_inside_zero (by decide) (by decide) _ _
            . split
              . exact beyond_inside (by omega) _ _
              . split
                . exact beyond_inside (by omega) _ _
                . trivial

theorem eq_of_ofNat_eq_lf {n : Nat} (h : Char.ofNat n = '\n') : n = 10 := by
  by_cases hvalid : n.isValidChar
  . have hval := congrArg Char.toNat h
    rwa [Char.toNat_ofNat, if_pos hvalid] at hval
  . rw [Char.ofNat, dif_neg hvalid] at h
    exact absurd h (by decide)

theorem eq_lf_of_mem_lead {b : UInt8} (h : '\n' ∈ (lead b).2) : b = 0x0A := by
  by_cases hascii : b.toNat < 0x80
  . unfold lead at h
    dsimp only at h
    rw [if_pos hascii, List.mem_singleton] at h
    exact UInt8.toNat_inj.1 (eq_of_ofNat_eq_lf h.symm)
  . have hreplacement : '\n' ≠ replacement := by decide
    unfold lead at h
    dsimp only at h
    rw [if_neg hascii] at h
    (repeat' split at h) <;> simp [hreplacement] at h

theorem beyond_step {state : State} (h : state.Beyond) (b : UInt8)
    : (step state b).1.Beyond
        ∧
      ('\n' ∈ (step state b).2 → b = 0x0A) := by
  cases state with
  | start => exact ⟨beyond_lead b, eq_lf_of_mem_lead⟩
  | inside bits next later =>
    by_cases hnext : next.contains b = true
    . rw [step, if_pos hnext]
      have hbits := h.2 b hnext
      cases later with
      | nil =>
        refine ⟨trivial, ?_⟩
        intro hmem
        have hten := eq_of_ofNat_eq_lf (List.mem_singleton.1 hmem).symm
        have hone := h.1 rfl
        omega
      | cons further later =>
        refine ⟨beyond_inside hbits _ _, ?_⟩
        intro hmem
        contradiction
    . have hreplacement : '\n' ≠ replacement := by decide
      rw [step, if_neg hnext]
      refine ⟨beyond_lead b, ?_⟩
      intro hmem
      exact eq_lf_of_mem_lead ((List.mem_cons.1 hmem).resolve_left hreplacement)

theorem lf_mem_of_mem_decodeFrom {state : State} (h : state.Beyond) {bytes : List UInt8}
    (hmem : '\n' ∈ decodeFrom state bytes) : 0x0A ∈ bytes := by
  induction bytes generalizing state with
  | nil => cases state <;> simp [decodeFrom, finish, replacement] at hmem
  | cons b bytes ih =>
    obtain ⟨hnext, hlf⟩ := beyond_step h b
    rcases List.mem_append.1 hmem with hfirst | hrest
    . rw [hlf hfirst]
      exact .head _
    . exact .tail _ (ih hnext hrest)

theorem lf_not_mem_decodeString {bytes : List UInt8} (h : 0x0A ∉ bytes)
    : '\n' ∉ (decodeString bytes).toList := by
  have hstart : State.start.Beyond := trivial
  unfold decodeString
  rw [String.toList_ofList]
  exact fun hmem => h (lf_mem_of_mem_decodeFrom hstart hmem)

end FtpControl.Text.Utf8
