import FtpControl.Proofs.Ending

/-!
This module contains reading through a buffer with numbers of any size. Whatever pieces the bytes
of a peer come in, the session that takes its lines out of them through windows is the one that gets
the bytes one by one.
-/

namespace FtpControl

namespace Source

def take (src : Source) (window : Nat) : Except String (List UInt8 × Source) :=
  if window = 0 then
    .ok ([], src)
  else
    match src.fill with
    | .error reason => .error reason
    | .ok src =>
      let piece := upToLf (src.buffer.take window)
      let rest := { src with buffer := src.buffer.drop piece.length }
      if Framer.lf ∈ piece ∨ piece = [] then
        .ok (piece, rest)
      else
        (take rest (window - piece.length)).map fun (more, rest) => (piece ++ more, rest)
termination_by window
decreasing_by
  apply Nat.sub_lt
  . omega
  . exact List.length_pos_of_ne_nil (not_or.1 ‹_›).2

theorem inputs_ofChunks {chunks : List (List UInt8)} (h : ∀ chunk ∈ chunks, chunk ≠ [])
    : (ofChunks chunks).inputs = chunks.flatten.map .byte := by
  induction chunks with
  | nil => rfl
  | cons chunk chunks ih =>
    rw [List.forall_mem_cons] at h
    have hrest := ih h.2
    unfold ofChunks inputs at hrest ⊢
    rw [List.map_cons, List.flatMap_cons, List.flatten_cons, List.map_append, ← hrest]
    cases chunk with
    | nil => exact absurd rfl h.1
    | cons b bytes => rfl

theorem upToLf_of_not_mem {bytes : List UInt8} (h : Framer.lf ∉ bytes) : upToLf bytes = bytes := by
  apply List.take_of_length_le
  rw [List.idxOf_eq_length h]
  omega

theorem upToLf_append_lf {body : List UInt8} (rest : List UInt8) (h : Framer.lf ∉ body)
    : upToLf (body ++ Framer.lf :: rest) = body ++ [Framer.lf] := by
  unfold upToLf
  rw [List.idxOf_append_of_notMem h, List.idxOf_cons_self, List.append_cons]
  apply List.take_left'
  simp

inductive Fills (src : Source) : Except String Source → Prop
  | held {filled : Source} (hbuffer : filled.buffer ≠ []) (hinputs : src.inputs = filled.inputs)
    : Fills src (.ok filled)
  | stopped {filled : Source} (hbuffer : filled.buffer = [])
      (hinputs : src.inputs = .eof :: filled.inputs)
    : Fills src (.ok filled)
  | exhausted {filled : Source} (hbuffer : filled.buffer = []) (hinputs : src.inputs = [])
      (hfilled : filled.inputs = [])
    : Fills src (.ok filled)
  | failed {reason : String} {later : List Input} (hinputs : src.inputs = .failure reason :: later)
    : Fills src (.error reason)

theorem fills (src : Source) : src.Fills src.fill := by
  obtain ⟨buffer, reads⟩ := src
  unfold fill
  dsimp only
  split
  . next bytes reads =>
    cases bytes with
    | nil =>
      apply Fills.stopped
      . rfl
      . rfl
    | cons b bytes =>
      apply Fills.held
      . simp
      . simp [inputs, looks]
  . next reason reads =>
    exact .failed rfl
  . next hok herror =>
    cases buffer with
    | cons b buffer => exact .held (by simp) rfl
    | nil =>
      cases reads with
      | nil => exact .exhausted rfl rfl rfl
      | cons read reads =>
        cases read with
        | ok bytes => exact absurd rfl (hok bytes reads rfl)
        | error reason => exact absurd rfl (herror reason reads rfl)

theorem Fills.inputs_eq {src filled : Source} (h : src.Fills (.ok filled))
    (hbuffer : filled.buffer ≠ []) : src.inputs = filled.inputs := by
  cases h with
  | held _ hinputs => exact hinputs
  | stopped hempty _ => exact absurd hempty hbuffer
  | exhausted hempty _ _ => exact absurd hempty hbuffer

inductive Stops (window : Nat) (body : List UInt8)
    : List Input → Except String (List UInt8 × Source) → Prop
  | line (rest : Source) (hroom : body.length < window)
    : Stops window body (.byte Framer.lf :: rest.inputs) (.ok (body ++ [Framer.lf], rest))
  | full (rest : Source) (hroom : body.length = window)
    : Stops window body rest.inputs (.ok (body, rest))
  | ended (rest : Source) (hroom : body.length < window)
    : Stops window body (.eof :: rest.inputs) (.ok (body, rest))
  | exhausted (rest : Source) (hroom : body.length < window) (hrest : rest.inputs = [])
    : Stops window body [] (.ok (body, rest))
  | failed (reason : String) (later : List Input) (hroom : body.length < window)
    : Stops window body (.failure reason :: later) (.error reason)

theorem Stops.prepend {piece body : List UInt8} {window : Nat} {behind : List Input}
    {taken : Except String (List UInt8 × Source)} (hlength : piece.length ≤ window)
    (h : Stops (window - piece.length) body behind taken)
    : Stops window (piece ++ body) behind
        (taken.map fun (more, rest) => (piece ++ more, rest)) := by
  have hroom : (piece ++ body).length = piece.length + body.length := List.length_append
  cases h with
  | line rest hbody =>
    simp only [Except.map, ← List.append_assoc]
    exact .line rest (by omega)
  | full rest hbody => exact .full rest (by omega)
  | ended rest hbody => exact .ended rest (by omega)
  | exhausted rest hbody hrest => exact .exhausted rest (by omega) hrest
  | failed reason later hbody => exact .failed reason later (by omega)

theorem upToLf_take (buffer : List UInt8) (window : Nat)
    : upToLf (buffer.take window) <+: buffer
        ∧
      ((∃ body, upToLf (buffer.take window) = body ++ [Framer.lf]
          ∧ Framer.lf ∉ body ∧ body.length < window)
        ∨
      Framer.lf ∉ upToLf (buffer.take window)
        ∧ (upToLf (buffer.take window)).length = min window buffer.length) := by
  constructor
  . exact (List.take_prefix _ _).trans (List.take_prefix window buffer)
  . by_cases hlf : Framer.lf ∈ buffer.take window
    . left
      obtain ⟨body, tail, hseen, hbody⟩ := List.eq_append_cons_of_mem hlf
      rw [hseen, upToLf_append_lf tail hbody]
      refine ⟨body, rfl, hbody, ?_⟩
      have hlength := congrArg List.length hseen
      rw [List.length_take, List.length_append, List.length_cons] at hlength
      omega
    . right
      rw [upToLf_of_not_mem hlf, List.length_take]
      exact ⟨hlf, rfl⟩

theorem inputs_eq_of_prefix {src : Source} {piece : List UInt8} (h : piece <+: src.buffer)
    : src.inputs
        =
      piece.map .byte ++ inputs { src with buffer := src.buffer.drop piece.length } := by
  unfold inputs
  conv => lhs; rw [← List.prefix_iff_eq_append.1 h]
  rw [List.map_append, List.append_assoc]

section

variable {src filled : Source} {window : Nat} {piece : List UInt8}

theorem exists_stops_of_done (hfills : src.Fills (.ok filled)) (hwindow : 0 < window)
    (hpiece : piece = upToLf (filled.buffer.take window)) (hdone : Framer.lf ∈ piece ∨ piece = [])
    : ∃ body behind,
        Framer.lf ∉ body
          ∧
        src.inputs = body.map .byte ++ behind
          ∧
        Stops window body behind
          (.ok (piece, { filled with buffer := filled.buffer.drop piece.length })) := by
  obtain ⟨hbegins, hcases⟩ := upToLf_take filled.buffer window
  rw [← hpiece] at hbegins hcases
  have hsplit := inputs_eq_of_prefix hbegins
  rcases hcases with ⟨body, hline, hbody, hroom⟩ | ⟨hlf, hlength⟩
  . have hbuffer : filled.buffer ≠ [] := by
      apply hbegins.ne_nil
      simp [hline]
    rw [← hfills.inputs_eq hbuffer, hline] at hsplit
    rw [hline]
    refine ⟨body, _, hbody, ?_, .line _ hroom⟩
    rw [hsplit]
    simp
  . -- The buffer is empty although it has just been filled, so the input has ended.
    obtain rfl : piece = [] := hdone.resolve_left hlf
    have hbuffer : filled.buffer = [] := by
      rw [List.length_nil] at hlength
      apply List.eq_nil_of_length_eq_zero
      omega
    cases hfills with
    | held hne _ => exact absurd hbuffer hne
    | stopped _ hinputs => exact ⟨[], _, by simp, hinputs, .ended filled hwindow⟩
    | exhausted _ hinputs hfilled =>
      exact ⟨[], _, by simp, hinputs, .exhausted filled hwindow hfilled⟩

theorem inputs_eq_of_not_done (hfills : src.Fills (.ok filled))
    (hpiece : piece = upToLf (filled.buffer.take window))
    (hdone : ¬ (Framer.lf ∈ piece ∨ piece = []))
    : piece.length ≤ window
        ∧
      src.inputs
          =
        piece.map .byte ++ inputs { filled with buffer := filled.buffer.drop piece.length } := by
  rw [not_or] at hdone
  obtain ⟨hbegins, hcases⟩ := upToLf_take filled.buffer window
  rw [← hpiece] at hbegins hcases
  rcases hcases with ⟨body, hline, _, _⟩ | ⟨_, hlength⟩
  . rw [hline] at hdone
    simp at hdone
  . rw [hfills.inputs_eq (hbegins.ne_nil hdone.2)]
    exact ⟨by omega, inputs_eq_of_prefix hbegins⟩

end

theorem exists_stops_take (src : Source) (window : Nat)
    : ∃ body behind,
        Framer.lf ∉ body
          ∧
        src.inputs = body.map .byte ++ behind
          ∧
        Stops window body behind (src.take window) := by
  fun_induction take src window with
  | case1 src => exact ⟨[], src.inputs, by simp, rfl, .full src rfl⟩
  | case2 src window hwindow reason hfill =>
    have hfills := src.fills
    rw [hfill] at hfills
    cases hfills with
    | @failed _ later hinputs =>
      exact ⟨[], _, by simp, hinputs, .failed reason later (Nat.pos_of_ne_zero hwindow)⟩
  | case3 src window hwindow filled hfill piece rest hdone =>
    have hfills := src.fills
    rw [hfill] at hfills
    exact exists_stops_of_done hfills (Nat.pos_of_ne_zero hwindow) rfl hdone
  | case4 src window hwindow filled hfill piece rest hdone ih =>
    have hfills := src.fills
    rw [hfill] at hfills
    obtain ⟨hlength, hsplit⟩ := inputs_eq_of_not_done hfills rfl hdone
    obtain ⟨body, behind, hbody, hinputs, hstops⟩ := ih
    refine ⟨piece ++ body, behind, ?_, ?_, hstops.prepend hlength⟩
    . rw [List.mem_append, not_or]
      exact ⟨(not_or.1 hdone).1, hbody⟩
    . rw [List.map_append, List.append_assoc, ← hinputs]
      exact hsplit

theorem length_take_le {src rest : Source} {window : Nat} {piece : List UInt8}
    (h : src.take window = .ok (piece, rest))
    : rest.inputs.length + piece.length ≤ src.inputs.length := by
  obtain ⟨body, behind, _, hinputs, hstops⟩ := exists_stops_take src window
  rw [h] at hstops
  rw [hinputs]
  cases hstops with
  | line _ _ =>
    simp
    omega
  | full _ _ =>
    simp
    omega
  | ended _ _ =>
    simp
    omega
  | exhausted _ _ hrest => simp [hrest]

def drain (src : Source) (window : Nat) : Except String Source :=
  match _h : src.take window with
  | .error reason => .error reason
  | .ok (piece, rest) =>
    if piece = [] ∨ piece.getLast? = some Framer.lf then .ok rest else rest.drain window
termination_by src.inputs.length
decreasing_by
  have hpiece := List.length_pos_of_ne_nil (not_or.1 ‹_›).1
  have hlength := length_take_le _h
  omega

theorem drain_eq (src : Source) (window : Nat)
    : src.drain window
        =
      match src.take window with
      | .error reason => .error reason
      | .ok (piece, rest) =>
        if piece = [] ∨ piece.getLast? = some Framer.lf then .ok rest else rest.drain window := by
  rw [drain]
  split <;> simp_all

theorem length_drain_le {src rest : Source} {window : Nat} (h : src.drain window = .ok rest)
    : rest.inputs.length ≤ src.inputs.length := by
  fun_induction drain src window with
  | case1 src reason htake => contradiction
  | case2 src piece found htake hdone =>
    have hlength := length_take_le htake
    rw [← Except.ok.inj h]
    omega
  | case3 src piece found htake hdone ih =>
    have hlength := length_take_le htake
    have hfound := ih h
    omega

def readLine (src : Source) (limit : Nat) : Except String (Option Frame × Source) :=
  match src.take (limit + 1) with
  | .error reason => .error reason
  | .ok (piece, rest) =>
    if piece = [] then
      .ok (none, rest)
    else if piece.length ≤ limit then
      .ok (some (.line piece), rest)
    else if piece.getLast? = some Framer.lf then
      .ok (some (.overLong (piece.take limit)), rest)
    else
      (rest.drain limit).map fun rest => (some (.overLong (piece.take limit)), rest)

theorem length_readLine_lt {src rest : Source} {limit : Nat} {frame : Frame}
    (h : src.readLine limit = .ok (some frame, rest))
    : rest.inputs.length < src.inputs.length := by
  unfold readLine at h
  split at h
  . contradiction
  . next piece found htake =>
    have hlength := length_take_le htake
    split at h
    . simp at h
    . next hne =>
      have hpiece := List.length_pos_of_ne_nil hne
      have hfound : rest.inputs.length ≤ found.inputs.length := by
        split at h
        . apply Nat.le_of_eq
          rw [(Prod.mk.inj (Except.ok.inj h)).2]
        . split at h
          . apply Nat.le_of_eq
            rw [(Prod.mk.inj (Except.ok.inj h)).2]
          . cases hdrain : found.drain limit with
            | error reason =>
              rw [hdrain] at h
              contradiction
            | ok drained =>
              rw [hdrain] at h
              rw [← (Prod.mk.inj (Except.ok.inj h)).2]
              exact length_drain_le hdrain
      omega

-- So many looks at the lasting end are enough for one more line.
def Lasts (src : Source) (n : Nat) : Prop :=
  3 ≤ n ∨ src.inputs = [] ∧ 1 ≤ n

/-- What a framer finds is what was read, and it leaves what has not been read. -/
inductive Agrees
    : Option (Framer.Progress × List Input) → Except String (Option Frame × Source) → Prop
  | failed (reason : String) (later : List Input)
    : Agrees (some (.failed reason, later)) (.error reason)
  | closed (rest : Source) (later : List Input)
    : Agrees (some (.closed, later)) (.ok (none, rest))
  | frame (frame : Frame) {rest : Source} {n : Nat} (hlasts : rest.Lasts n)
    : Agrees (some (.frame frame, rest.inputs ++ List.replicate n .eof)) (.ok (some frame, rest))

end Source

namespace Framer

theorem scan_inside {limit : Nat} (kept : List UInt8) {body : List UInt8} (h : lf ∉ body)
    (rest : List Input) {taken : Nat} (hroom : taken + body.length < limit)
    : scan limit (draining kept taken) (body.map .byte ++ rest)
        =
      scan limit (draining kept (taken + body.length)) rest := by
  induction body generalizing taken with
  | nil => rfl
  | cons b body ih =>
    rw [List.mem_cons, not_or] at h
    rw [List.length_cons] at hroom ⊢
    have hstep : step limit (draining kept taken) (.byte b)
        = .more (draining kept (taken + 1)) := by
      rw [step, if_neg (Ne.symm h.1), if_neg (by omega)]
    rw [List.map_cons, List.cons_append, scan_of_more _ hstep, ih h.2 (by omega)]
    rw [Nat.add_right_comm, Nat.add_assoc]

theorem scan_full {limit : Nat} (kept : List UInt8) {body : List UInt8} (h : lf ∉ body)
    (rest : List Input) (hne : body ≠ []) (hfull : body.length = limit)
    : scan limit (draining kept 0) (body.map .byte ++ rest)
        =
      scan limit (draining kept 0) rest := by
  -- All bytes but the last one stay inside the window, and that one closes it.
  obtain ⟨front, b, rfl⟩ := (List.eq_nil_or_concat' body).resolve_left hne
  rw [List.mem_append, List.mem_singleton, not_or] at h
  rw [List.length_append, List.length_singleton] at hfull
  have hstep : step limit (draining kept (0 + front.length)) (.byte b)
      = .more (draining kept 0) := by
    rw [step, if_neg (Ne.symm h.2), if_pos (by omega)]
  rw [List.map_append, List.append_assoc, scan_inside kept h.1 _ (by omega)]
  exact scan_of_more rest hstep

-- An end of the input inside a window ends the window, and not the line.
theorem scan_window_eof {limit : Nat} (kept : List UInt8) {body : List UInt8} (h : lf ∉ body)
    (rest : List Input) (hne : body ≠ []) (hroom : body.length < limit)
    : scan limit (draining kept 0) (body.map .byte ++ .eof :: rest)
        =
      scan limit (draining kept 0) rest := by
  obtain ⟨b, bytes, rfl⟩ := List.exists_cons_of_ne_nil hne
  have hstep : step limit (draining kept (0 + (b :: bytes).length)) .eof
      = .more (draining kept 0) := by
    rw [List.length_cons, ← Nat.add_assoc]
    rfl
  rw [scan_inside kept h _ (by omega)]
  exact scan_of_more rest hstep

theorem after_of_full {limit : Nat} {body : List UInt8} (h : body.length = limit + 1)
    : after limit body = draining (body.take limit) 0 := by
  unfold after
  rw [if_neg (by omega), h, Nat.add_sub_cancel_left, Nat.sub_self, Nat.zero_mod]

theorem scan_after_eof {limit : Nat} {body : List UInt8} (h : body.length ≤ limit)
    (rest : List Input)
    : scan limit (after limit body) (.eof :: rest)
        =
      some (if body = [] then .closed else .frame (.line body), rest) := by
  unfold after
  rw [if_pos h]
  cases hheld : body.reverse with
  | nil =>
    rw [List.reverse_eq_nil_iff] at hheld
    rw [scan_of_ne_more _ (by simp [step]), if_pos hheld]
    simp [step]
  | cons b held =>
    have hne : body ≠ [] := by
      intro hnil
      simp [hnil] at hheld
    rw [if_neg hne]
    apply scan_of_frame
    rw [step, ← hheld, List.reverse_reverse]
    simp

end Framer

namespace Source

theorem three_le {src : Source} {body : List UInt8} {behind : List Input} {m n : Nat}
    (hn : 3 ≤ n ∨ src.inputs = [] ∧ m ≤ n) (hinputs : src.inputs = body.map .byte ++ behind)
    (hne : body ≠ [] ∨ behind ≠ []) : 3 ≤ n := by
  rcases hn with hn | ⟨hnil, _⟩
  . exact hn
  . rw [hnil] at hinputs
    simp_all

theorem agrees_drain {limit : Nat} (hlimit : 0 < limit) (kept : List UInt8) (src : Source)
    (n : Nat) (hn : 3 ≤ n ∨ src.inputs = [] ∧ 2 ≤ n)
    : Agrees ((Framer.draining kept 0).scan limit (src.inputs ++ List.replicate n .eof))
        ((src.drain limit).map fun rest => (some (.overLong kept), rest)) := by
  fun_induction drain src limit generalizing n with
  | case1 src reason htake =>
    obtain ⟨body, behind, hbody, hinputs, hstops⟩ := exists_stops_take src limit
    rw [htake] at hstops
    rw [hinputs, List.append_assoc]
    cases hstops with
    | failed _ later hroom =>
      rw [Framer.scan_inside kept hbody _ (by omega), List.cons_append, Framer.scan_failure]
      apply Agrees.failed
  | case2 src piece rest htake hdone =>
    obtain ⟨body, behind, hbody, hinputs, hstops⟩ := exists_stops_take src limit
    have hthree : body ≠ [] ∨ behind ≠ [] → 3 ≤ n := three_le hn hinputs
    rw [htake] at hstops
    rw [hinputs, List.append_assoc]
    cases hstops with
    | line _ hroom =>
      have hstep : Framer.step limit (.draining kept (0 + body.length)) (.byte Framer.lf)
          = .frame (.overLong kept) := rfl
      rw [Framer.scan_inside kept hbody _ (by omega), List.cons_append,
        Framer.scan_of_frame _ hstep]
      exact .frame _ (.inl (hthree (.inr (by simp))))
    | full _ hroom =>
      rcases hdone with hnil | hlast
      . rw [hnil] at hroom
        exact absurd hroom (Nat.ne_of_lt hlimit)
      . exact absurd hlast (Framer.getLast?_ne_lf hbody)
    | ended _ hroom =>
      have hnil := hdone.resolve_right (Framer.getLast?_ne_lf hbody)
      have hn' := hthree (.inr (by simp))
      rw [hnil, List.map_nil, List.nil_append, List.cons_append, Framer.scan_of_frame _ rfl]
      exact .frame _ (.inl hn')
    | exhausted _ hroom hrest =>
      have hnil := hdone.resolve_right (Framer.getLast?_ne_lf hbody)
      obtain ⟨m, rfl⟩ : ∃ m, n = m + 1 := ⟨n - 1, by omega⟩
      have hscan : (Framer.draining kept 0).scan limit (List.replicate (m + 1) .eof)
          = some (.frame (.overLong kept), rest.inputs ++ List.replicate m .eof) := by
        rw [hrest]
        exact Framer.scan_of_frame _ rfl
      rw [hnil, List.map_nil, List.nil_append, List.nil_append, hscan]
      exact .frame _ (.inr ⟨hrest, by omega⟩)
  | case3 src piece rest htake hdone ih =>
    obtain ⟨body, behind, hbody, hinputs, hstops⟩ := exists_stops_take src limit
    have hthree : body ≠ [] ∨ behind ≠ [] → 3 ≤ n := three_le hn hinputs
    rw [htake] at hstops
    rw [not_or] at hdone
    rw [hinputs, List.append_assoc]
    cases hstops with
    | line _ hroom => simp at hdone
    | full _ hroom =>
      have hn' := hthree (.inl hdone.1)
      rw [Framer.scan_full kept hbody _ hdone.1 hroom]
      exact ih n (.inl hn')
    | ended _ hroom =>
      have hn' := hthree (.inl hdone.1)
      rw [List.cons_append, Framer.scan_window_eof kept hbody _ hdone.1 hroom]
      exact ih n (.inl hn')
    | exhausted _ hroom hrest =>
      have hn' := hthree (.inl hdone.1)
      obtain ⟨m, rfl⟩ : ∃ m, n = m + 1 := ⟨n - 1, by omega⟩
      have hm := ih m (.inr ⟨hrest, by omega⟩)
      rw [hrest] at hm
      rw [List.nil_append, List.replicate_succ,
        Framer.scan_window_eof kept hbody _ hdone.1 hroom]
      exact hm

theorem agrees_readLine (src : Source) (limit : Nat) (hlimit : 0 < limit) (n : Nat)
    (hn : src.Lasts n)
    : Agrees ((Framer.fresh limit).scan limit (src.inputs ++ List.replicate n .eof))
        (src.readLine limit) := by
  have hbody' : ∀ {body : List UInt8} (rest : List Input), Framer.lf ∉ body
      → (Framer.fresh limit).scan limit (body.map .byte ++ rest)
        = (Framer.after limit body).scan limit rest := by
    intro body rest hbody
    rw [← Framer.after_nil, Framer.scan_body limit hlimit [] body hbody, List.nil_append]
  obtain ⟨body, behind, hbody, hinputs, hstops⟩ := exists_stops_take src (limit + 1)
  have hthree : body ≠ [] ∨ behind ≠ [] → 3 ≤ n := three_le hn hinputs
  unfold readLine
  rw [hinputs, List.append_assoc, hbody' _ hbody]
  generalize src.take (limit + 1) = taken at hstops
  cases hstops with
  | line rest hroom =>
    dsimp only
    rw [if_neg (by simp), List.cons_append,
      Framer.scan_of_frame _ (Framer.step_after_lf limit body)]
    have hn' := hthree (.inr (by simp))
    unfold Frame.ofLine
    split
    . exact .frame _ (.inl hn')
    . rw [if_pos (by simp)]
      exact .frame _ (.inl hn')
  | full rest hroom =>
    have hne : body ≠ [] := List.ne_nil_of_length_pos (by omega)
    dsimp only
    rw [if_neg hne, if_neg (by omega), if_neg (Framer.getLast?_ne_lf hbody),
      Framer.after_of_full hroom]
    exact agrees_drain hlimit _ rest n (.inl (hthree (.inl hne)))
  | ended rest hroom =>
    have hn' := hthree (.inr (by simp))
    dsimp only
    rw [List.cons_append, Framer.scan_after_eof (by omega)]
    split
    . apply Agrees.closed
    . rw [if_pos (by omega)]
      exact .frame _ (.inl hn')
  | exhausted rest hroom hrest =>
    obtain ⟨m, rfl⟩ : ∃ m, n = m + 1 := by
      rcases hn with hn | ⟨_, hn⟩
      . exact ⟨n - 1, by omega⟩
      . exact ⟨n - 1, by omega⟩
    dsimp only
    rw [List.nil_append, List.replicate_succ, Framer.scan_after_eof (by omega)]
    split
    . apply Agrees.closed
    . next hne =>
      have hn' := hthree (.inl hne)
      have hlasts : rest.Lasts m := .inr ⟨hrest, by omega⟩
      have hframe := Agrees.frame (.line body) hlasts
      rw [hrest] at hframe
      rw [if_pos (by omega)]
      exact hframe
  | failed reason later hroom =>
    rw [List.cons_append, Framer.scan_failure]
    apply Agrees.failed

end Source

namespace Session

variable {oracle : Action.Oracle} {s : Session}

def runFrom (oracle : Action.Oracle) (s : Session) (src : Source) : Step :=
  if s.isReading then
    match _h : src.readLine s.settings.maxCommandLength with
    | .error reason => s.finish (.transport (.io reason))
    | .ok (none, _) => s.finish .peerClosed
    | .ok (some frame, rest) => (s.handle oracle frame).andThen fun s => s.runFrom oracle rest
  else
    (s, [])
termination_by src.inputs.length
decreasing_by
  exact Source.length_readLine_lt _h

def serveFrom (oracle : Action.Oracle) (s : Session) (src : Source) : Step :=
  s.start.andThen fun s => s.runFrom oracle src

theorem run_of_ending (oracle : Action.Oracle) (h : s.AtLine) (hreading : s.isReading = true)
    {inputs rest : List Input} {progress : Framer.Progress} {ending : Reason}
    (hscan : (Framer.fresh s.settings.maxCommandLength).scan s.settings.maxCommandLength inputs
      = some (progress, rest))
    (hending : progress.ending? = some ending)
    : s.run oracle inputs = s.finish ending := by
  obtain ⟨framer, hphase⟩ := exists_of_isReading hreading
  rw [← h framer hphase] at hscan
  rw [← run_of_scan_ending oracle s framer _ _ hscan hending, ← hphase]

section

variable {limit : Nat}
  (hagrees : ∀ (src : Source) n,
    src.Lasts n
      →
    Source.Agrees ((Framer.fresh limit).scan limit (src.inputs ++ List.replicate n .eof))
      (src.readLine limit))

include hagrees

theorem runFrom_eq_run (oracle : Action.Oracle) (s : Session) (h : s.AtLine)
    (hlimit : s.settings.maxCommandLength = limit) (src : Source) {n : Nat} (hn : src.Lasts n)
    : s.runFrom oracle src = s.run oracle (src.inputs ++ List.replicate n .eof) := by
  fun_induction runFrom oracle s src generalizing n with
  | case1 s src hreading reason hread =>
    subst hlimit
    have hline := hagrees src n hn
    rw [hread] at hline
    generalize hscan : Framer.scan _ _ _ = scanned at hline
    cases hline with
    | failed _ later => exact (run_of_ending oracle h hreading hscan rfl).symm
  | case2 s src hreading rest hread =>
    subst hlimit
    have hline := hagrees src n hn
    rw [hread] at hline
    generalize hscan : Framer.scan _ _ _ = scanned at hline
    cases hline with
    | closed _ later => exact (run_of_ending oracle h hreading hscan rfl).symm
  | case3 s src hreading frame rest hread ih =>
    subst hlimit
    have hline := hagrees src n hn
    rw [hread] at hline
    generalize hscan : Framer.scan _ _ _ = scanned at hline
    cases hline with
    | frame _ hlasts =>
      have hsteady := steady_handle oracle s frame
      rw [run_of_scan oracle s h _ _ _ hscan, if_pos hreading]
      apply Step.andThen_congr
      apply ih _ hsteady.atLine _ hlasts
      rw [hsteady.settings_eq]
  | case4 s src hreading =>
    rw [Bool.not_eq_true] at hreading
    rw [run_of_not_isReading oracle s _ hreading]

theorem serveFrom_eq_of_agrees (oracle : Action.Oracle) (s : Session)
    (hlimit : s.settings.maxCommandLength = limit) (src : Source)
    : s.serveFrom oracle src = s.serve oracle src.inputs := by
  have hsteady := steady_start s
  apply Step.andThen_congr
  apply runFrom_eq_run hagrees oracle _ hsteady.atLine
  . rw [hsteady.settings_eq, hlimit]
  . exact .inl (Nat.le_refl 3)

end

theorem serveFrom_eq_serve (oracle : Action.Oracle) (s : Session)
    (hlimit : 0 < s.settings.maxCommandLength) (src : Source)
    : s.serveFrom oracle src = s.serve oracle src.inputs := by
  exact serveFrom_eq_of_agrees (fun src n => src.agrees_readLine _ hlimit n) oracle s rfl src

end Session

end FtpControl
