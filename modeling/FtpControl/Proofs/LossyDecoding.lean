import FtpControl.Proofs.Decoding

/-!
This module contains the rule that lossy decoding follows, stated by the encodings of the characters
only: a piece in front of which no character stands becomes one replacement character, and it is as
long as the beginning of a character can be there. The automaton gives what the rule says, and the
rule allows nothing else.
-/

namespace FtpControl.Text.Utf8

theorem toNat_of_isValidChar {v : Nat} (h : v < 55296 ∨ 57343 < v ∧ v < 1114112)
    : (Char.ofNat v).val.toNat = v := by
  have hvalid : v.isValidChar := h
  have hval := Char.toNat_ofNat v
  rwa [if_pos hvalid] at hval

theorem utf8EncodeChar_ofNat_one {v : Nat} (h : v < 128)
    : String.utf8EncodeChar (Char.ofNat v) = [UInt8.ofNat v] := by
  rw [String.utf8EncodeChar, toNat_of_isValidChar (.inl (by omega))]
  rw [if_pos (by omega)]

theorem utf8EncodeChar_ofNat_two {v : Nat} (hlow : 128 ≤ v) (hhigh : v < 2048)
    : String.utf8EncodeChar (Char.ofNat v) = [UInt8.ofNat (v / 64 + 192), continuation v] := by
  rw [String.utf8EncodeChar, toNat_of_isValidChar (.inl (by omega))]
  rw [if_neg (by omega), if_pos (by omega), show v / 64 % 32 = v / 64 by omega]
  rfl

theorem utf8EncodeChar_ofNat_three {v : Nat} (hlow : 2048 ≤ v) (hhigh : v < 65536)
    (hvalid : v < 55296 ∨ 57343 < v)
    : String.utf8EncodeChar (Char.ofNat v)
        =
      [UInt8.ofNat (v / 4096 + 224), continuation (v / 64), continuation v] := by
  rw [String.utf8EncodeChar, toNat_of_isValidChar (by omega)]
  rw [if_neg (by omega), if_neg (by omega), if_pos (by omega),
    show v / 4096 % 16 = v / 4096 by omega]
  rfl

theorem utf8EncodeChar_ofNat_four {v : Nat} (hlow : 65536 ≤ v) (hhigh : v < 1114112)
    : String.utf8EncodeChar (Char.ofNat v)
        =
      [UInt8.ofNat (v / 262144 + 240), continuation (v / 4096), continuation (v / 64),
        continuation v] := by
  rw [String.utf8EncodeChar, toNat_of_isValidChar (by omega)]
  rw [if_neg (by omega), if_neg (by omega), if_neg (by omega),
    show v / 262144 % 8 = v / 262144 by omega]
  rfl

def State.awaited : State → List Range
  | start => []
  | inside _ next later => next :: later

def Fits (ranges : List Range) (bytes : List UInt8) : Prop :=
  List.Forall₂ (fun r b => r.contains b = true) ranges bytes

theorem fits_cons_iff {r : Range} {ranges : List Range} {bytes : List UInt8}
    : Fits (r :: ranges) bytes
        ↔
      ∃ b rest, r.contains b = true ∧ Fits ranges rest ∧ bytes = b :: rest := by
  apply List.forall₂_cons_left_iff

@[simp]
theorem fits_nil_iff {bytes : List UInt8} : Fits [] bytes ↔ bytes = [] := by
  apply List.forall₂_nil_left_iff

theorem lead_ne_of_inside {b : UInt8} {bits : Nat} {next : Range} {later : List Range}
    (h : lead b = (.inside bits next later, [])) : lead b ≠ (.start, [replacement]) := by
  rw [h]
  nofun

theorem fits_of_encode {c : Char} {b : UInt8} {tail : List UInt8}
    (h : String.utf8EncodeChar c = b :: tail)
    : lead b ≠ (.start, [replacement]) ∧ Fits (lead b).1.awaited tail := by
  have hvalid : c.val.toNat < 55296 ∨ 57343 < c.val.toNat ∧ c.val.toNat < 1114112 := c.valid
  have hc : Char.ofNat c.val.toNat = c := Char.ofNat_toNat c
  rw [← hc] at h
  generalize c.val.toNat = v at h hvalid
  by_cases hone : v < 128
  . rw [utf8EncodeChar_ofNat_one hone, List.cons.injEq] at h
    obtain ⟨rfl, rfl⟩ := h
    have hlead : lead (UInt8.ofNat v) = (.start, [Char.ofNat v]) := by
      unfold lead
      rw [toNat_ofNat (by omega)]
      exact if_pos (by omega)
    have hne : Char.ofNat v ≠ replacement := by
      intro heq
      have hval := congrArg (fun c => c.val.toNat) heq
      rw [toNat_of_isValidChar hvalid] at hval
      have hreplacement : replacement.val.toNat = 65533 := rfl
      omega
    rw [hlead]
    refine ⟨?_, fits_nil_iff.2 rfl⟩
    intro heq
    exact hne (List.cons.inj (Prod.mk.inj heq).2).1
  . by_cases htwo : v < 2048
    . rw [utf8EncodeChar_ofNat_two (by omega) htwo, List.cons.injEq] at h
      obtain ⟨rfl, rfl⟩ := h
      have hlead := lead_of_two (n := v / 64) (by omega) (by omega)
      refine ⟨lead_ne_of_inside hlead, ?_⟩
      rw [hlead]
      exact .cons (contains_any_continuation v) .nil
    . by_cases hthree : v < 65536
      . rw [utf8EncodeChar_ofNat_three (by omega) hthree (by omega), List.cons.injEq] at h
        obtain ⟨rfl, rfl⟩ := h
        obtain ⟨next, hlead, hnext⟩ := exists_lead_of_three (v := v) (by omega) hthree (by omega)
        refine ⟨lead_ne_of_inside hlead, ?_⟩
        rw [hlead]
        exact .cons hnext (.cons (contains_any_continuation v) .nil)
      . rw [utf8EncodeChar_ofNat_four (by omega) (by omega), List.cons.injEq] at h
        obtain ⟨rfl, rfl⟩ := h
        obtain ⟨next, hlead, hnext⟩ := exists_lead_of_four (v := v) (by omega) (by omega)
        refine ⟨lead_ne_of_inside hlead, ?_⟩
        rw [hlead]
        exact .cons hnext
          (.cons (contains_any_continuation _) (.cons (contains_any_continuation v) .nil))

theorem contains_iff (r : Range) (b : UInt8)
    : r.contains b = true ↔ r.low.toNat ≤ b.toNat ∧ b.toNat ≤ r.high.toNat := by
  unfold Range.contains
  rw [Bool.and_eq_true, decide_eq_true_eq, decide_eq_true_eq, UInt8.le_iff_toNat_le,
    UInt8.le_iff_toNat_le]

theorem continuation_eq (b : UInt8) {n : Nat} (h : n % 64 + 128 = b.toNat)
    : continuation n = b := by
  apply UInt8.toNat_inj.1
  rw [toNat_continuation, h]

theorem ofNat_eq (b : UInt8) {n : Nat} (h : n = b.toNat) : UInt8.ofNat n = b := by
  rw [h, UInt8.ofNat_toNat]

theorem toNat_of_contains_any {b : UInt8} (h : Range.any.contains b = true)
    : 128 ≤ b.toNat ∧ b.toNat ≤ 191 := by
  rwa [contains_iff] at h

theorem exists_encode_of_two {a : UInt8} {tail : List UInt8} (ha : 194 ≤ a.toNat ∧ a.toNat ≤ 223)
    (hfits : Fits [.any] tail) : ∃ c, String.utf8EncodeChar c = a :: tail := by
  obtain ⟨b, _, hb, hnil, rfl⟩ := fits_cons_iff.1 hfits
  obtain rfl := fits_nil_iff.1 hnil
  have hb := toNat_of_contains_any hb
  refine ⟨Char.ofNat ((a.toNat - 192) * 64 + (b.toNat - 128)), ?_⟩
  rw [utf8EncodeChar_ofNat_two (by omega) (by omega), ofNat_eq a (by omega),
    continuation_eq b (by omega)]

-- What a range leaves out after the least first byte would be overlong, and a surrogate after ED.
theorem exists_encode_of_three {a : UInt8} {r : Range} {tail : List UInt8}
    (ha : 224 ≤ a.toNat ∧ a.toNat ≤ 239) (hlow : a.toNat = 224 → 160 ≤ r.low.toNat)
    (hhigh : r.high.toNat ≤ 191) (hsurrogate : a.toNat = 237 → r.high.toNat ≤ 159)
    (hfits : Fits [r, .any] tail) : ∃ c, String.utf8EncodeChar c = a :: tail := by
  obtain ⟨b, _, hb, hmore, rfl⟩ := fits_cons_iff.1 hfits
  obtain ⟨d, _, hd, hnil, rfl⟩ := fits_cons_iff.1 hmore
  obtain rfl := fits_nil_iff.1 hnil
  have hd := toNat_of_contains_any hd
  have hr : 128 ≤ r.low.toNat := r.not_ascii
  rw [contains_iff] at hb
  refine ⟨Char.ofNat ((a.toNat - 224) * 4096 + (b.toNat - 128) * 64 + (d.toNat - 128)), ?_⟩
  rw [utf8EncodeChar_ofNat_three (by omega) (by omega) (by omega), ofNat_eq a (by omega),
    continuation_eq b (by omega), continuation_eq d (by omega)]

theorem exists_encode_of_four {a : UInt8} {r : Range} {tail : List UInt8}
    (ha : 240 ≤ a.toNat ∧ a.toNat ≤ 244) (hlow : a.toNat = 240 → 144 ≤ r.low.toNat)
    (hhigh : r.high.toNat ≤ 191) (hlast : a.toNat = 244 → r.high.toNat ≤ 143)
    (hfits : Fits [r, .any, .any] tail) : ∃ c, String.utf8EncodeChar c = a :: tail := by
  obtain ⟨b, _, hb, hmore, rfl⟩ := fits_cons_iff.1 hfits
  obtain ⟨d, _, hd, hlater, rfl⟩ := fits_cons_iff.1 hmore
  obtain ⟨e, _, he, hnil, rfl⟩ := fits_cons_iff.1 hlater
  obtain rfl := fits_nil_iff.1 hnil
  have hd := toNat_of_contains_any hd
  have he := toNat_of_contains_any he
  have hr : 128 ≤ r.low.toNat := r.not_ascii
  rw [contains_iff] at hb
  refine ⟨Char.ofNat ((a.toNat - 240) * 262144 + (b.toNat - 128) * 4096 + (d.toNat - 128) * 64
    + (e.toNat - 128)), ?_⟩
  rw [utf8EncodeChar_ofNat_four (by omega) (by omega), ofNat_eq a (by omega),
    continuation_eq b (by omega), continuation_eq d (by omega), continuation_eq e (by omega)]

theorem exists_encode_of_fits {b : UInt8} {tail : List UInt8}
    (hlead : lead b ≠ (.start, [replacement])) (hfits : Fits (lead b).1.awaited tail)
    : ∃ c, String.utf8EncodeChar c = b :: tail := by
  unfold lead at hlead hfits
  dsimp only at hlead hfits
  simp only [Bool.and_eq_true, decide_eq_true_eq, beq_iff_eq] at hlead hfits
  split at hfits
  . next hone =>
    obtain rfl := fits_nil_iff.1 hfits
    exact ⟨Char.ofNat b.toNat, by rw [utf8EncodeChar_ofNat_one hone, ofNat_eq b rfl]⟩
  . split at hfits
    . next htwo => exact exists_encode_of_two htwo hfits
    . split at hfits
      . next hfirst =>
        exact exists_encode_of_three (by omega) (fun _ => by decide) (by decide) (by omega) hfits
      . split at hfits
        . next hsurrogate =>
          exact exists_encode_of_three (by omega) (by omega) (by decide) (fun _ => by decide) hfits
        . split at hfits
          . next hthree =>
            exact exists_encode_of_three (by omega) (by omega) (by decide) (by omega) hfits
          . split at hfits
            . next hfirst =>
              exact exists_encode_of_four (by omega) (fun _ => by decide) (by decide) (by omega)
                hfits
            . split at hfits
              . next hlast =>
                exact exists_encode_of_four (by omega) (by omega) (by decide) (fun _ => by decide)
                  hfits
              . split at hfits
                . next hfour =>
                  exact exists_encode_of_four (by omega) (by omega) (by decide) (by omega) hfits
                . simp_all

def Begins (piece : List UInt8) : Prop :=
  ∃ c, piece <+: String.utf8EncodeChar c

/--
A piece in front of which no character stands. It is as long as the beginning of a character can be
there, or one byte if not even that begins a character.
-/
structure IllFormed (piece rest : List UInt8) : Prop where
  not_char : ∀ c, ¬ String.utf8EncodeChar c <+: piece ++ rest
  ne_nil : piece ≠ []
  begins : Begins piece ∨ piece.length = 1
  maximal : ∀ longer, longer <+: piece ++ rest → Begins longer → longer.length ≤ piece.length

inductive Lossy : List UInt8 → List Char → Prop
  | nil : Lossy [] []
  | char (c : Char) {rest : List UInt8} {cs : List Char} (h : Lossy rest cs)
    : Lossy (String.utf8EncodeChar c ++ rest) (c :: cs)
  | replaced {piece rest : List UInt8} {cs : List Char} (hpiece : IllFormed piece rest)
      (h : Lossy rest cs)
    : Lossy (piece ++ rest) (replacement :: cs)

theorem decodeFrom_of_fits {state : State} {piece : List UInt8} {front later : List Range}
    {next : Range} (hawaited : state.awaited = front ++ next :: later) (hfits : Fits front piece)
    : ∃ bits, ∀ rest,
        decodeFrom state (piece ++ rest) = decodeFrom (.inside bits next later) rest := by
  induction hfits generalizing state with
  | nil =>
    cases state with
    | start => contradiction
    | inside bits found others =>
      rw [State.awaited, List.nil_append, List.cons.injEq] at hawaited
      rw [hawaited.1, hawaited.2]
      exact ⟨bits, fun _ => rfl⟩
  | @cons r b front piece hb _ ih =>
    cases state with
    | start => contradiction
    | inside bits found others =>
      rw [State.awaited, List.cons_append, List.cons.injEq] at hawaited
      obtain ⟨rfl, hothers⟩ := hawaited
      cases others with
      | nil => simp at hothers
      | cons further others =>
        obtain ⟨bits', hdecode⟩ := @ih (.inside _ further others) hothers
        refine ⟨bits', fun rest => ?_⟩
        rw [List.cons_append, decodeFrom, step, if_pos hb]
        exact hdecode rest

theorem decodeFrom_of_not_contains {bits : Nat} {next : Range} {later : List Range}
    {rest : List UInt8} (h : ∀ b ∈ rest.head?, next.contains b = false)
    : decodeFrom (.inside bits next later) rest = replacement :: decodeFrom .start rest := by
  cases rest with
  | nil => rfl
  | cons b rest =>
    have hb : next.contains b = false := h b rfl
    rw [decodeFrom, step, if_neg (by simp [hb])]
    rfl

theorem lead_snd_eq_nil {b : UInt8} (h : (lead b).1 ≠ .start) : (lead b).2 = [] := by
  unfold lead at h ⊢
  dsimp only at h ⊢
  repeat' split
  all_goals simp_all

theorem exists_fits_lead (b : UInt8) : ∃ tail, Fits (lead b).1.awaited tail := by
  refine ⟨(lead b).1.awaited.map (·.low), ?_⟩
  have hlow : ∀ r ∈ (lead b).1.awaited, r.contains r.low = true := by
    unfold lead
    dsimp only
    repeat' split
    all_goals simp [State.awaited, Range.contains, Range.any]
  exact List.forall₂_map_right_iff.2 (List.forall₂_same.2 hlow)

theorem exists_awaited_of_begins {b : UInt8} {tail : List UInt8} (h : Begins (b :: tail))
    (hnot : ∀ c, String.utf8EncodeChar c ≠ b :: tail)
    : ∃ front next later,
        (lead b).1.awaited = front ++ next :: later
          ∧
        Fits front tail
          ∧
        ∀ x, next.contains x = true → Begins (b :: tail ++ [x]) := by
  obtain ⟨c, more, hc⟩ := h
  obtain ⟨hlead, hfits⟩ := fits_of_encode hc.symm
  have hfront := List.forall₂_take_append _ _ _ hfits
  have hback := List.forall₂_drop_append _ _ _ hfits
  cases more with
  | nil => exact absurd hc.symm (by simpa using hnot c)
  | cons m more =>
    obtain ⟨next, later, _, hlater, hdrop⟩ := List.forall₂_cons_right_iff.1 hback
    have hawaited := (List.take_append_drop tail.length (lead b).1.awaited).symm
    rw [hdrop] at hawaited
    refine ⟨_, next, later, hawaited, hfront, ?_⟩
    intro x hx
    have hfits' : Fits (lead b).1.awaited (tail ++ x :: more) := by
      rw [hawaited]
      exact List.rel_append hfront (.cons hx hlater)
    obtain ⟨c', hc'⟩ := exists_encode_of_fits hlead hfits'
    refine ⟨c', more, ?_⟩
    rw [hc']
    simp

theorem decode_of_illFormed {piece rest : List UInt8} (h : IllFormed piece rest)
    : decode (piece ++ rest) = replacement :: decode rest := by
  obtain ⟨b, tail, rfl⟩ := List.exists_cons_of_ne_nil h.ne_nil
  by_cases hbegins : Begins (b :: tail)
  . have hnot : ∀ c, String.utf8EncodeChar c ≠ b :: tail := by
      intro c hc
      apply h.not_char c
      rw [hc]
      apply List.prefix_append
    obtain ⟨front, next, later, hawaited, hfits, hmore⟩ := exists_awaited_of_begins hbegins hnot
    obtain ⟨bits, hdecode⟩ := decodeFrom_of_fits hawaited hfits
    have hlead : (lead b).2 = [] := by
      apply lead_snd_eq_nil
      intro hstart
      simp [hstart, State.awaited] at hawaited
    have hnext : ∀ x ∈ rest.head?, next.contains x = false := by
      intro x hx
      rw [Option.mem_def, List.head?_eq_some_iff] at hx
      obtain ⟨later, rfl⟩ := hx
      rw [← Bool.not_eq_true]
      intro hcontains
      have hlonger := h.maximal (b :: tail ++ [x]) (by simp) (hmore x hcontains)
      simp at hlonger
    rw [decode, List.cons_append, decodeFrom, step, hlead, List.nil_append, hdecode,
      decodeFrom_of_not_contains hnext]
    rfl
  . have hone := h.begins.resolve_left hbegins
    obtain rfl : tail = [] := by simpa using hone
    have hlead : lead b = (.start, [replacement]) := by
      by_contra hlead
      obtain ⟨tail, hfits⟩ := exists_fits_lead b
      obtain ⟨c, hc⟩ := exists_encode_of_fits hlead hfits
      exact hbegins ⟨c, by simp [hc]⟩
    rw [decode, List.cons_append, decodeFrom, step, hlead]
    rfl

theorem exists_illFormed {bytes : List UInt8} (hne : bytes ≠ [])
    (hnot : ∀ c, ¬ String.utf8EncodeChar c <+: bytes)
    : ∃ piece rest, piece ++ rest = bytes ∧ IllFormed piece rest := by
  -- The piece is the longest beginning of a character there, and one byte if there is none.
  classical
  let BeginsAt (n : Nat) : Prop := Begins (bytes.take n)
  obtain ⟨size, hsize⟩ : ∃ size, size = Nat.findGreatest BeginsAt bytes.length := ⟨_, rfl⟩
  have hbegins : Begins (bytes.take size) := by
    have hnil : BeginsAt 0 := ⟨'a', List.nil_prefix⟩
    rw [hsize]
    exact Nat.findGreatest_spec (Nat.zero_le _) hnil
  have hlength : 0 < bytes.length := List.length_pos_of_ne_nil hne
  have hle : size ≤ bytes.length := by
    rw [hsize]
    apply Nat.findGreatest_le
  refine ⟨bytes.take (max size 1), bytes.drop (max size 1), List.take_append_drop _ _, ?_⟩
  constructor
  . rwa [List.take_append_drop]
  . rw [Ne, List.take_eq_nil_iff, not_or]
    exact ⟨by omega, hne⟩
  . rcases Nat.eq_zero_or_pos size with hzero | hpos
    . right
      rw [List.length_take]
      omega
    . left
      rwa [Nat.max_eq_left hpos]
  . rw [List.take_append_drop]
    intro longer hlonger hbegins
    have hat : BeginsAt longer.length := by
      dsimp only [BeginsAt]
      rwa [← List.prefix_iff_eq_take.1 hlonger]
    have hgreatest := Nat.le_findGreatest hlonger.length_le hat
    rw [List.length_take]
    omega

theorem exists_lossy (bytes : List UInt8) : ∃ cs, Lossy bytes cs := by
  by_cases hne : bytes = []
  . rw [hne]
    exact ⟨[], .nil⟩
  . by_cases hchar : ∃ c, String.utf8EncodeChar c <+: bytes
    . obtain ⟨c, rest, hbytes⟩ := hchar
      have hpos := List.length_pos_of_ne_nil (String.utf8EncodeChar_ne_nil (c := c))
      have hlength := congrArg List.length hbytes
      obtain ⟨cs, hcs⟩ := exists_lossy rest
      rw [← hbytes]
      exact ⟨c :: cs, .char c hcs⟩
    . rw [not_exists] at hchar
      obtain ⟨piece, rest, hbytes, hpiece⟩ := exists_illFormed hne hchar
      have hpos := List.length_pos_of_ne_nil hpiece.ne_nil
      have hlength := congrArg List.length hbytes
      obtain ⟨cs, hcs⟩ := exists_lossy rest
      rw [← hbytes]
      exact ⟨replacement :: cs, .replaced hpiece hcs⟩
termination_by bytes.length
decreasing_by
  all_goals
    rw [List.length_append] at hlength
    omega

theorem Lossy.eq_decode {bytes : List UInt8} {cs : List Char} (h : Lossy bytes cs)
    : cs = decode bytes := by
  induction h with
  | nil => rfl
  | char c _ ih => rw [decode, decodeFrom_utf8EncodeChar, ← decode, ih]
  | replaced hpiece _ ih => rw [decode_of_illFormed hpiece, ih]

theorem lossy_iff {bytes : List UInt8} {cs : List Char} : Lossy bytes cs ↔ cs = decode bytes := by
  constructor
  . exact Lossy.eq_decode
  . rintro rfl
    obtain ⟨cs, hcs⟩ := exists_lossy bytes
    rwa [hcs.eq_decode] at hcs

end FtpControl.Text.Utf8
