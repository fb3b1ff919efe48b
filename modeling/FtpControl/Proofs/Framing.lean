import FtpControl.Frame

/-!
This module contains the theory of framing. The lines of a byte stream are defined by cutting it
behind every LF; a framer that is fed the stream gives exactly these lines, each as the limit shows
it.
-/

namespace FtpControl

def Frame.ofLine (limit : Nat) (line : List UInt8) : Frame :=
  if line.length ≤ limit then .line line else .overLong (line.take limit)

namespace Framer

def lines : List UInt8 → List (List UInt8)
  | [] => []
  | b :: bytes =>
    if b = lf then
      [b] :: lines bytes
    else
      match lines bytes with
      | [] => [[b]]
      | line :: rest => (b :: line) :: rest

/-- A list of lines that together are `bytes`: an LF ends a line, and only the last may lack it. -/
structure IsCut (bytes : List UInt8) (cut : List (List UInt8)) : Prop where
  flatten_eq : cut.flatten = bytes
  ne_nil : ∀ line ∈ cut, line ≠ []
  not_mem_dropLast : ∀ line ∈ cut, lf ∉ line.dropLast
  getLast?_eq : ∀ line ∈ cut.dropLast, line.getLast? = some lf

theorem lines_append_lf (body rest : List UInt8) (h : lf ∉ body)
    : lines (body ++ lf :: rest) = (body ++ [lf]) :: lines rest := by
  induction body with
  | nil => simp [lines]
  | cons b body ih =>
    rw [List.mem_cons, not_or] at h
    rw [List.cons_append, lines, if_neg (Ne.symm h.1), ih h.2]
    rfl

theorem lines_of_not_mem (body : List UInt8) (hne : body ≠ []) (h : lf ∉ body)
    : lines body = [body] := by
  induction body with
  | nil => contradiction
  | cons b body ih =>
    rw [List.mem_cons, not_or] at h
    rw [lines, if_neg (Ne.symm h.1)]
    cases body with
    | nil => rfl
    | cons c body => rw [ih (by simp) h.2]

theorem lines_induction {motive : List UInt8 → Prop} (nil : motive [])
    (tail : ∀ body, body ≠ [] → lf ∉ body → motive body)
    (line : ∀ body rest, lf ∉ body → motive rest → motive (body ++ lf :: rest))
    (bytes : List UInt8) : motive bytes := by
  -- The bytes are taken one at a time, and `body` is what has come of the present line.
  suffices h : ∀ body, lf ∉ body → motive (body ++ bytes) by
    apply h []
    simp
  induction bytes with
  | nil =>
    intro body hbody
    rw [List.append_nil]
    cases body with
    | nil => exact nil
    | cons b body => exact tail _ (by simp) hbody
  | cons b bytes ih =>
    intro body hbody
    by_cases hb : b = lf
    . subst hb
      apply line
      . exact hbody
      . apply ih []
        simp
    . rw [List.append_cons]
      apply ih
      rw [List.mem_append, List.mem_singleton, not_or]
      exact ⟨hbody, Ne.symm hb⟩

theorem getLast?_ne_lf {body : List UInt8} (h : lf ∉ body) : body.getLast? ≠ some lf := by
  intro hlast
  exact h (List.mem_of_getLast? hlast)

theorem isCut_lines (bytes : List UInt8) : IsCut bytes (lines bytes) := by
  induction bytes using lines_induction with
  | nil => constructor <;> simp [lines]
  | tail body hne h =>
    rw [lines_of_not_mem body hne h]
    constructor
    . simp
    . simpa using hne
    . intro line hline
      rw [List.mem_singleton] at hline
      rw [hline]
      intro hmem
      exact h (List.dropLast_subset body hmem)
    . simp
  | line body rest h ih =>
    rw [lines_append_lf body rest h]
    constructor
    . simp [ih.flatten_eq]
    . simpa using ih.ne_nil
    . intro line hline
      cases List.mem_cons.1 hline with
      | inl heq => simpa [heq] using h
      | inr hmem => exact ih.not_mem_dropLast line hmem
    . intro line hline
      cases hrest : lines rest with
      | nil => simp [hrest] at hline
      | cons first others =>
        rw [hrest, List.dropLast_cons_cons, List.mem_cons] at hline
        cases hline with
        | inl heq => simp [heq]
        | inr hmem =>
          apply ih.getLast?_eq
          rw [hrest]
          exact hmem

theorem IsCut.tail {bytes line : List UInt8} {cut : List (List UInt8)}
    (h : IsCut bytes (line :: cut)) : IsCut cut.flatten cut := by
  constructor
  . rfl
  . intro other hother
    exact h.ne_nil other (List.mem_cons_of_mem line hother)
  . intro other hother
    exact h.not_mem_dropLast other (List.mem_cons_of_mem line hother)
  . intro other hother
    apply h.getLast?_eq
    cases cut with
    | nil => simp at hother
    | cons first others =>
      rw [List.dropLast_cons_cons]
      exact List.mem_cons_of_mem line hother

theorem isCut_iff (bytes : List UInt8) (cut : List (List UInt8))
    : IsCut bytes cut ↔ cut = lines bytes := by
  constructor
  . intro h
    rw [← h.flatten_eq]
    induction cut generalizing bytes with
    | nil => rfl
    | cons line cut ih =>
      have hne := h.ne_nil line (by simp)
      have hbody := h.not_mem_dropLast line (by simp)
      cases cut with
      | nil =>
        rw [List.flatten_singleton]
        by_cases hlast : line.getLast hne = lf
        . rw [← List.dropLast_concat_getLast hne, hlast, lines_append_lf _ [] hbody]
          rfl
        . rw [lines_of_not_mem line hne]
          rw [← List.dropLast_concat_getLast hne, List.mem_append, List.mem_singleton, not_or]
          exact ⟨hbody, Ne.symm hlast⟩
      | cons second others =>
        have hlast := h.getLast?_eq line (by simp)
        obtain ⟨body, rfl⟩ := List.getLast?_eq_some_iff.1 hlast
        rw [List.dropLast_concat] at hbody
        rw [List.flatten_cons, List.append_assoc, List.singleton_append]
        rw [lines_append_lf _ _ hbody, ← ih _ h.tail]
  . intro h
    rw [h]
    apply isCut_lines

theorem succ_mod (limit : Nat) (hlimit : 0 < limit) (n : Nat)
    : (n + 1) % limit = if n % limit + 1 = limit then 0 else n % limit + 1 := by
  have := Nat.mod_lt n hlimit
  rw [← Nat.mod_add_mod]
  split
  . next heq => rw [heq, Nat.mod_self]
  . apply Nat.mod_eq_of_lt
    omega

def after (limit : Nat) (body : List UInt8) : Framer :=
  if body.length ≤ limit then
    collecting body.reverse (limit - body.length)
  else
    draining (body.take limit) ((body.length - limit - 1) % limit)

@[simp]
theorem after_nil (limit : Nat) : after limit [] = fresh limit := by
  simp [after, fresh]

theorem step_after (limit : Nat) (hlimit : 0 < limit) (body : List UInt8) (b : UInt8) (hb : b ≠ lf)
    : step limit (after limit body) (.byte b) = .more (after limit (body ++ [b])) := by
  unfold after
  rw [List.length_append, List.length_singleton]
  split
  . next hle =>
    cases hroom : limit - body.length with
    | zero =>
      -- The line is full, and `b` is the byte that makes it too long.
      have hfull : body.length = limit := by omega
      rw [if_neg (by omega)]
      simp [step, overflow, hb, hfull, Nat.ne_of_gt hlimit]
    | succ room =>
      rw [if_pos (by omega)]
      simp only [step, if_neg hb, Progress.more.injEq, collecting.injEq]
      constructor
      . simp
      . omega
  . next hgt =>
    rw [if_neg (by omega)]
    simp only [step, if_neg hb, Progress.more.injEq, draining.injEq]
    constructor
    . rw [List.take_append_of_le_length (by omega)]
    . have hsucc : body.length + 1 - limit - 1 = body.length - limit - 1 + 1 := by omega
      rw [hsucc, succ_mod limit hlimit]

theorem step_after_lf (limit : Nat) (body : List UInt8)
    : step limit (after limit body) (.byte lf) = .frame (.ofLine limit (body ++ [lf])) := by
  unfold after Frame.ofLine
  rw [List.length_append, List.length_singleton]
  split
  . next hle =>
    cases hroom : limit - body.length with
    | zero =>
      have hfull : body.length = limit := by omega
      rw [if_neg (by omega)]
      simp [step, overflow, hfull]
    | succ room =>
      rw [if_pos (by omega)]
      simp [step]
  . next hgt =>
    rw [if_neg (by omega)]
    rw [List.take_append_of_le_length (by omega)]
    rfl

def scan (limit : Nat) (framer : Framer) : List Input → Option (Progress × List Input)
  | [] => none
  | input :: rest =>
    match framer.step limit input with
    | .more framer => scan limit framer rest
    | progress => some (progress, rest)

theorem scan_of_more {limit : Nat} {framer next : Framer} {input : Input} (rest : List Input)
    (h : framer.step limit input = .more next)
    : scan limit framer (input :: rest) = scan limit next rest := by
  rw [scan, h]

theorem scan_of_frame {limit : Nat} {framer : Framer} {input : Input} {frame : Frame}
    (rest : List Input) (h : framer.step limit input = .frame frame)
    : scan limit framer (input :: rest) = some (.frame frame, rest) := by
  rw [scan, h]

theorem scan_body (limit : Nat) (hlimit : 0 < limit) (begun body : List UInt8) (h : lf ∉ body)
    (rest : List Input)
    : scan limit (after limit begun) (body.map .byte ++ rest)
        =
      scan limit (after limit (begun ++ body)) rest := by
  induction body generalizing begun with
  | nil => simp
  | cons b body ih =>
    rw [List.mem_cons, not_or] at h
    rw [List.map_cons, List.cons_append]
    rw [scan_of_more _ (step_after limit hlimit begun b (Ne.symm h.1))]
    rw [ih _ h.2, List.append_assoc, List.singleton_append]

theorem scan_line (limit : Nat) (hlimit : 0 < limit) (body : List UInt8) (h : lf ∉ body)
    (rest : List Input)
    : scan limit (fresh limit) ((body ++ [lf]).map .byte ++ rest)
        =
      some (.frame (.ofLine limit (body ++ [lf])), rest) := by
  rw [List.map_append, List.append_assoc, ← after_nil]
  rw [scan_body limit hlimit [] body h]
  exact scan_of_frame rest (step_after_lf limit body)

theorem scan_closed (limit n : Nat)
    : scan limit (fresh limit) (List.replicate (n + 1) .eof)
        =
      some (.closed, List.replicate n .eof) := by
  rw [List.replicate_succ, scan]
  simp [fresh, step]

-- Inside a window the end of the input is found twice: once by the window and once by the line.
theorem scan_tail (limit : Nat) (hlimit : 0 < limit) (body : List UInt8) (hne : body ≠ [])
    (h : lf ∉ body) (n : Nat)
    : ∃ left, n ≤ left ∧
        scan limit (fresh limit) (body.map .byte ++ List.replicate (n + 2) .eof)
          =
        some (.frame (.ofLine limit body), List.replicate left .eof) := by
  rw [← after_nil, scan_body limit hlimit [] body h, List.nil_append]
  unfold after Frame.ofLine
  split
  . next hle =>
    refine ⟨n + 1, by omega, ?_⟩
    apply scan_of_frame
    cases hheld : body.reverse with
    | nil => simp [hne] at hheld
    | cons b held =>
      rw [step, ← hheld, List.reverse_reverse]
      simp
  . next hgt =>
    cases (body.length - limit - 1) % limit with
    | zero => exact ⟨n + 1, by omega, scan_of_frame _ rfl⟩
    | succ taken =>
      refine ⟨n, by omega, ?_⟩
      rw [List.replicate_succ, scan_of_more _ rfl]
      exact scan_of_frame _ rfl

theorem scan_failure (limit : Nat) (framer : Framer) (reason : String) (rest : List Input)
    : scan limit framer (.failure reason :: rest) = some (.failed reason, rest) := by
  cases framer with
  | collecting held room => cases held <;> cases room <;> rfl
  | draining kept taken => cases taken <;> rfl

end Framer

end FtpControl
