import Mathlib
import FtpControl.Proofs.Buffering
import FtpControl.Proofs.Dialogue

/-!
This module contains reading with numbers of 64 bits. As long as there is such a number beyond the
limit, it is reading with numbers of any size, and what is read is the lines of the input, each as
the limit shows it.
-/

namespace FtpControl

namespace Source

theorem take64_eq (src : Source) (window : UInt64)
    : src.take64 window = src.take window.toNat := by
  have hne : ∀ {window : UInt64}, ¬window = 0 → ¬window.toNat = 0 := by
    intro window hwindow hzero
    exact hwindow (UInt64.toNat_inj.1 hzero)
  fun_induction take64 src window with
  | case1 src =>
    rw [take]
    rfl
  | case2 src window hwindow reason hfill => rw [take, if_neg (hne hwindow), hfill]
  | case3 src window hwindow filled hfill piece rest hdone =>
    rw [take, if_neg (hne hwindow), hfill]
    exact (if_pos hdone).symm
  | case4 src window hwindow filled hfill piece rest hdone ih =>
    rw [toNat_sub_length (length_upToLf_take_le _ _)] at ih
    rw [take, if_neg (hne hwindow), hfill, ih]
    exact (if_neg hdone).symm

theorem drain64_eq (src : Source) (window : UInt64)
    : src.drain64 window = src.drain window.toNat := by
  fun_induction drain64 src window with
  | case1 src reason htake =>
    rw [take64_eq] at htake
    rw [drain]
    split <;> simp_all
  | case2 src piece rest htake hdone =>
    rw [take64_eq] at htake
    rw [drain]
    split <;> simp_all
  | case3 src piece rest htake hdone ih =>
    rw [take64_eq] at htake
    rw [drain, ih]
    split <;> simp_all

theorem toNat_of_window? {limit window : UInt64} (h : window? limit = some window)
    : window.toNat = limit.toNat + 1 := by
  unfold window? at h
  split at h
  . next hroom =>
    rw [← Option.some.inj h, UInt64.toNat_add, UInt64.toNat_one]
    exact Nat.mod_eq_of_lt hroom
  . contradiction

theorem window?_eq_none_iff {limit : UInt64}
    : window? limit = none ↔ limit.toNat + 1 = 2 ^ 64 := by
  have hlimit := limit.toNat_lt
  unfold window? UInt64.size
  split <;> simp <;> omega

theorem length_le_window {src rest : Source} {window : Nat} {piece : List UInt8}
    (h : src.take window = .ok (piece, rest)) : piece.length ≤ window := by
  obtain ⟨body, behind, _, _, hstops⟩ := exists_stops_take src window
  rw [h] at hstops
  cases hstops with
  | line _ hroom =>
    rw [List.length_append, List.length_singleton]
    omega
  | full _ hroom => omega
  | ended _ hroom => omega
  | exhausted _ hroom _ => omega

theorem readLine64_eq (src : Source) (limit : UInt64)
    : src.readLine64 limit = (window? limit).map fun _ => src.readLine limit.toNat := by
  unfold readLine64
  apply Option.map_congr
  intro window hwindow
  have hlimit := toNat_of_window? hwindow
  unfold readLine
  rw [take64_eq, hlimit]
  cases htake : src.take (limit.toNat + 1) with
  | error reason => rfl
  | ok taken =>
    obtain ⟨piece, rest⟩ := taken
    have hlength := length_le_window htake
    have hpiece : (UInt64.ofNat piece.length).toNat = piece.length := by
      apply UInt64.toNat_ofNat_of_lt'
      rw [← hlimit] at hlength
      exact Nat.lt_of_le_of_lt hlength window.toNat_lt
    dsimp only
    simp only [UInt64.le_iff_toNat_le, hpiece, drain64_eq]

theorem readLine64_eq_some {limit : UInt64} (h : limit.toNat + 1 < 2 ^ 64) (src : Source)
    : src.readLine64 limit = some (src.readLine limit.toNat) := by
  have hroom : limit.toNat + 1 < UInt64.size := h
  rw [readLine64_eq, window?, if_pos hroom]
  rfl

section

variable {src : Source} {limit : Nat}

theorem readLine64_of_room (h : limit + 1 < 2 ^ 64)
    : src.readLine64 (.ofNat limit) = some (src.readLine limit) := by
  have hlimit : (UInt64.ofNat limit).toNat = limit := by
    apply UInt64.toNat_ofNat_of_lt'
    exact Nat.lt_of_succ_lt h
  rw [← hlimit] at h
  rw [readLine64_eq_some h, hlimit]

theorem readLine64_of_overflow (h : limit + 1 = 2 ^ 64)
    : src.readLine64 (.ofNat limit) = none := by
  have hlimit : (UInt64.ofNat limit).toNat = limit := by
    apply UInt64.toNat_ofNat_of_lt'
    rw [UInt64.size]
    omega
  rw [readLine64_eq, Option.map_eq_none_iff, window?_eq_none_iff, hlimit, h]

end

inductive Ends : List UInt8 → List Input → List Input → Prop
  | lf (later : List Input) : Ends [Framer.lf] (.byte Framer.lf :: later) later
  | exhausted : Ends [] [] []

section

variable {src : Source} {body mark : List UInt8} {found later : List Input}

theorem exists_tail {front : List UInt8} {behind : List Input} (hfront : Framer.lf ∉ front)
    (hends : Ends mark found later)
    (heq : body.map .byte ++ found = front.map .byte ++ behind)
    : ∃ tail, body = front ++ tail ∧ behind = tail.map .byte ++ found := by
  induction front generalizing body with
  | nil => exact ⟨body, rfl, heq.symm⟩
  | cons b front ih =>
    rw [List.mem_cons, not_or] at hfront
    cases body with
    | nil =>
      cases hends with
      | lf => exact absurd (Input.byte.inj (List.cons.inj heq).1) hfront.1
      | exhausted => contradiction
    | cons c body =>
      obtain ⟨hbyte, hrest⟩ := List.cons.inj heq
      obtain ⟨tail, hbody, hbehind⟩ := ih hfront.2 hrest
      exact ⟨tail, by rw [Input.byte.inj hbyte, hbody, List.cons_append], hbehind⟩

theorem Ends.exists_byte {tail : List UInt8} {input : Input} {rest : List Input}
    (hends : Ends mark found later) (heq : input :: rest = tail.map .byte ++ found)
    : ∃ b, input = .byte b := by
  cases tail with
  | nil =>
    cases hends with
    | lf => exact ⟨_, (List.cons.inj heq).1⟩
    | exhausted => contradiction
  | cons b tail => exact ⟨b, (List.cons.inj heq).1⟩

theorem Ends.of_lf {tail : List UInt8} {rest : List Input} (hends : Ends mark found later)
    (htail : Framer.lf ∉ tail) (heq : .byte Framer.lf :: rest = tail.map .byte ++ found)
    : tail = [] ∧ mark = [Framer.lf] ∧ rest = later := by
  cases tail with
  | nil =>
    cases hends with
    | lf => exact ⟨rfl, rfl, (List.cons.inj heq).2⟩
    | exhausted => contradiction
  | cons b tail =>
    rw [List.mem_cons, not_or] at htail
    exact absurd (Input.byte.inj (List.cons.inj heq).1) htail.1

theorem Ends.of_nil {tail : List UInt8} (hends : Ends mark found later)
    (heq : [] = tail.map Input.byte ++ found)
    : tail = [] ∧ mark = [] ∧ found = [] ∧ later = [] := by
  obtain ⟨htail, hfound⟩ := List.append_eq_nil_iff.1 heq.symm
  cases hends with
  | lf => contradiction
  | exhausted => exact ⟨List.map_eq_nil_iff.1 htail, rfl, rfl, rfl⟩

theorem exists_take (src : Source) (window : Nat) (hbody : Framer.lf ∉ body)
    (hends : Ends mark found later) (hinputs : src.inputs = body.map .byte ++ found)
    : ∃ piece rest,
        src.take window = .ok (piece, rest)
          ∧
        (piece = body ++ mark ∧ body.length < window ∧ rest.inputs = later
          ∨
        ∃ tail, body = piece ++ tail ∧ piece.length = window
          ∧ rest.inputs = tail.map .byte ++ found) := by
  obtain ⟨front, behind, hfront, hsplit, hstops⟩ := exists_stops_take src window
  obtain ⟨tail, hcut, hbehind⟩ := exists_tail hfront hends (hinputs.symm.trans hsplit)
  generalize src.take window = taken at hstops ⊢
  cases hstops with
  | line rest hroom =>
    have htail : Framer.lf ∉ tail := fun hmem => hbody (hcut ▸ List.mem_append_right front hmem)
    obtain ⟨rfl, rfl, hlater⟩ := hends.of_lf htail hbehind
    rw [List.append_nil] at hcut
    exact ⟨_, rest, rfl, .inl ⟨by rw [hcut], hcut ▸ hroom, hlater⟩⟩
  | full rest hroom => exact ⟨front, rest, rfl, .inr ⟨tail, hcut, hroom, hbehind⟩⟩
  | ended rest hroom =>
    obtain ⟨b, hb⟩ := hends.exists_byte hbehind
    contradiction
  | exhausted rest hroom hrest =>
    obtain ⟨rfl, rfl, _, hlater⟩ := hends.of_nil hbehind
    rw [List.append_nil] at hcut
    exact ⟨front, rest, rfl, .inl ⟨by rw [hcut, List.append_nil], hcut ▸ hroom,
      hrest.trans hlater.symm⟩⟩
  | failed reason rest hroom =>
    obtain ⟨b, hb⟩ := hends.exists_byte hbehind
    contradiction

theorem exists_drain {limit : Nat} {body mark : List UInt8} {found later : List Input}
    (hlimit : 0 < limit) (src : Source) (hbody : Framer.lf ∉ body)
    (hends : Ends mark found later) (hinputs : src.inputs = body.map .byte ++ found)
    : ∃ rest, src.drain limit = .ok rest ∧ rest.inputs = later := by
  obtain ⟨piece, rest, htake, hcases⟩ := exists_take src limit hbody hends hinputs
  have hpiece : ∀ {tail}, body = piece ++ tail → Framer.lf ∉ piece ∧ Framer.lf ∉ tail := by
    intro tail hcut
    rwa [hcut, List.mem_append, not_or] at hbody
  rw [drain_eq, htake]
  dsimp only
  by_cases hdone : piece = [] ∨ piece.getLast? = some Framer.lf
  . rw [if_pos hdone]
    rcases hcases with ⟨_, _, hlater⟩ | ⟨tail, hcut, hfull, _⟩
    . exact ⟨rest, rfl, hlater⟩
    . rcases hdone with rfl | hlast
      . exact absurd hfull (Nat.ne_of_lt hlimit)
      . exact absurd hlast (Framer.getLast?_ne_lf (hpiece hcut).1)
  . have hlength := length_take_le htake
    have hpos := List.length_pos_iff.2 (not_or.1 hdone).1
    rw [if_neg hdone]
    rcases hcases with ⟨hline, _, hlater⟩ | ⟨tail, hcut, _, hrest⟩
    . cases hends with
      | lf => exact absurd (.inr (by simp [hline])) hdone
      -- The input has ended inside the window, and the next one finds nothing more.
      | exhausted =>
        have hnone : Framer.lf ∉ ([] : List UInt8) := List.not_mem_nil
        exact exists_drain hlimit rest hnone .exhausted hlater
    . exact exists_drain hlimit rest (hpiece hcut).2 hends hrest
termination_by src.inputs.length

theorem exists_readLine {limit : Nat} (hlimit : 0 < limit) (src : Source)
    (hbody : Framer.lf ∉ body) (hends : Ends mark found later)
    (hinputs : src.inputs = body.map .byte ++ found) (hne : body ++ mark ≠ [])
    : ∃ rest,
        src.readLine limit = .ok (some (.ofLine limit (body ++ mark)), rest)
          ∧
        rest.inputs = later := by
  obtain ⟨piece, rest, htake, hcases⟩ := exists_take src (limit + 1) hbody hends hinputs
  unfold readLine
  rw [htake]
  dsimp only
  rcases hcases with ⟨rfl, hroom, hlater⟩ | ⟨tail, hcut, hfull, hrest⟩
  . rw [if_neg hne]
    unfold Frame.ofLine
    split
    . exact ⟨rest, rfl, hlater⟩
    . next hlong =>
      cases hends with
      | lf => exact ⟨rest, if_pos (by simp), hlater⟩
      | exhausted =>
        rw [List.append_nil] at hlong
        omega
  . rw [hcut, List.mem_append, not_or] at hbody
    obtain ⟨last, hdrain, hlast⟩ := exists_drain hlimit rest hbody.2 hends hrest
    have hlong : ¬(body ++ mark).length ≤ limit := by
      rw [hcut, List.length_append, List.length_append]
      omega
    have htaken : (body ++ mark).take limit = piece.take limit := by
      rw [hcut, List.append_assoc, List.take_append_of_le_length (by omega)]
    rw [if_neg (List.ne_nil_of_length_pos (by omega)), if_neg (by omega),
      if_neg (Framer.getLast?_ne_lf hbody.1), hdrain, Frame.ofLine, if_neg hlong, htaken]
    exact ⟨last, rfl, hlast⟩

theorem exists_readLine_none (src : Source) (limit : Nat) (hinputs : src.inputs = [])
    : ∃ rest, src.readLine limit = .ok (none, rest) ∧ rest.inputs = [] := by
  have hnone : Framer.lf ∉ ([] : List UInt8) := List.not_mem_nil
  obtain ⟨piece, rest, htake, hcases⟩ := exists_take src (limit + 1) hnone .exhausted hinputs
  unfold readLine
  rw [htake]
  rcases hcases with ⟨rfl, _, hrest⟩ | ⟨tail, hcut, hfull, _⟩
  . exact ⟨rest, rfl, hrest⟩
  . rw [(List.append_eq_nil_iff.1 hcut.symm).1] at hfull
    contradiction

end

def readLines64 (src : Source) (limit : UInt64) : Option (Except String (List Frame × Source)) :=
  match _h : src.readLine64 limit with
  | none => none
  | some (.error reason) => some (.error reason)
  | some (.ok (none, rest)) => some (.ok ([], rest))
  | some (.ok (some frame, rest)) =>
    (rest.readLines64 limit).map (Except.map fun (frames, last) => (frame :: frames, last))
termination_by src.inputs.length
decreasing_by
  exact length_readLine64_lt _h

theorem readLines64_of_closed {src rest : Source} {limit : UInt64}
    (h : src.readLine64 limit = some (.ok (none, rest)))
    : src.readLines64 limit = some (.ok ([], rest)) := by
  rw [readLines64]
  split <;> simp_all

theorem readLines64_of_frame {src rest : Source} {limit : UInt64} {frame : Frame}
    (h : src.readLine64 limit = some (.ok (some frame, rest)))
    : src.readLines64 limit
        =
      (rest.readLines64 limit).map
        (Except.map fun (frames, last) => (frame :: frames, last)) := by
  rw [readLines64]
  split <;> simp_all

theorem exists_readLines64 {limit : UInt64} (hlimit : 0 < limit)
    (hroom : limit.toNat + 1 < 2 ^ 64) (bytes : List UInt8) (src : Source)
    (hinputs : src.inputs = bytes.map .byte)
    : ∃ rest,
        src.readLines64 limit
          =
        some (.ok ((Framer.lines bytes).map (.ofLine limit.toNat), rest))
          ∧
        rest.inputs = [] := by
  have hpos : 0 < limit.toNat := UInt64.lt_iff_toNat_lt.1 hlimit
  induction bytes using Framer.lines_induction generalizing src with
  | nil =>
    obtain ⟨rest, hread, hrest⟩ := exists_readLine_none src limit.toNat hinputs
    rw [← Option.some.injEq, ← readLine64_eq_some hroom] at hread
    exact ⟨rest, readLines64_of_closed hread, hrest⟩
  | tail body hne h =>
    rw [← List.append_nil (body.map _)] at hinputs
    obtain ⟨rest, hread, hrest⟩ :=
      exists_readLine hpos src h .exhausted hinputs (by simpa using hne)
    obtain ⟨last, hclosed, hlast⟩ := exists_readLine_none rest limit.toNat hrest
    rw [← Option.some.injEq, ← readLine64_eq_some hroom] at hread hclosed
    refine ⟨last, ?_, hlast⟩
    rw [readLines64_of_frame hread, readLines64_of_closed hclosed,
      Framer.lines_of_not_mem body hne h, List.append_nil]
    rfl
  | line body bytes h ih =>
    rw [List.map_append, List.map_cons] at hinputs
    obtain ⟨rest, hread, hrest⟩ := exists_readLine hpos src h (.lf _) hinputs (by simp)
    obtain ⟨last, hlines, hlast⟩ := ih rest hrest
    rw [← Option.some.injEq, ← readLine64_eq_some hroom] at hread
    refine ⟨last, ?_, hlast⟩
    rw [readLines64_of_frame hread, hlines, Framer.lines_append_lf body bytes h]
    rfl

/--
Reading line after line gives the lines of the input, whatever pieces it comes in, and what follows
a line is read as if the line were not there.
-/
theorem readLines64_exact (limit : UInt64) (hlimit : 0 < limit)
    (hroom : limit.toNat + 1 < 2 ^ 64)
    : (∀ (bytes : List UInt8) (src : Source),
        src.inputs = bytes.map .byte
          →
        ∃ rest,
          src.readLines64 limit
            =
          some (.ok ((Framer.lines bytes).map (.ofLine limit.toNat), rest))
            ∧
          rest.inputs = [])
        ∧
      (∀ (bytes : List UInt8) (cut : List (List UInt8)),
        Framer.IsCut bytes cut ↔ cut = Framer.lines bytes)
        ∧
      (∀ (body : List UInt8) (later : List Input) (src : Source),
        Framer.lf ∉ body
          →
        src.inputs = (body ++ [Framer.lf]).map .byte ++ later
          →
        ∃ rest,
          src.readLine64 limit
            =
          some (.ok (some (.ofLine limit.toNat (body ++ [Framer.lf])), rest))
            ∧
          rest.inputs = later) := by
  refine ⟨exists_readLines64 hlimit hroom, Framer.isCut_iff, ?_⟩
  intro body later src hbody hinputs
  rw [List.map_append, List.append_assoc] at hinputs
  obtain ⟨rest, hread, hrest⟩ :=
    exists_readLine (UInt64.lt_iff_toNat_lt.1 hlimit) src hbody (.lf later) hinputs (by simp)
  rw [← Option.some.injEq, ← readLine64_eq_some hroom] at hread
  exact ⟨rest, hread, hrest⟩

theorem readLines64_exact_three
    : let src : Source := ⟨[97], [.ok [98, 99], .ok [10, 100]]⟩
      let broken : Source := ⟨[97, 98], [.ok [99, 10, 100], .error "reset"]⟩
      (0 : UInt64) < 3
        ∧
      (3 : UInt64).toNat + 1 < 2 ^ 64
        ∧
      (∃ rest,
        src.readLines64 3 = some (.ok ([.overLong [97, 98, 99], .line [100]], rest))
          ∧
        rest.inputs = [])
        ∧
      ∃ rest,
        broken.readLine64 3 = some (.ok (some (.overLong [97, 98, 99]), rest))
          ∧
        rest.inputs = [.byte 100, .failure "reset"] := by
  intro src broken
  obtain ⟨hlines, _, hline⟩ := readLines64_exact 3 (by decide) (by decide)
  refine ⟨by decide, by decide, ?_, ?_⟩
  . exact hlines [97, 98, 99, 10, 100] src rfl
  . exact hline [97, 98, 99] [.byte 100, .failure "reset"] broken (by decide) rfl

theorem readLines64_of_largest
    : let limit : UInt64 := 0xFFFFFFFFFFFFFFFF
      let src := ofChunks [[97, 10]]
      0 < limit
        ∧
      src.inputs = [97, 10].map .byte
        ∧
      (Framer.lines [97, 10]).map (Frame.ofLine limit.toNat) = [.line [97, 10]]
        ∧
      src.readLines64 limit = none
        ∧
      src.take64 (limit + 1) = .ok ([], src) := by
  intro limit src
  have hread : src.readLine64 limit = none := by
    rw [readLine64_eq, Option.map_eq_none_iff, window?_eq_none_iff]
    decide
  refine ⟨by decide, rfl, ?_, ?_, ?_⟩
  . have hlines : Framer.lines [97, 10] = [[97, 10]] := by decide
    have hfits : [97, 10].length ≤ limit.toNat := by decide
    rw [hlines, List.map_singleton, Frame.ofLine]
    exact congrArg (fun frame => [frame]) (if_pos hfits)
  . rw [readLines64]
    split <;> simp_all
  . have hwindow : limit + 1 = 0 := by decide
    rw [hwindow, take64]
    rfl

end Source

namespace Session

variable (oracle : Action.Oracle) {s : Session}

theorem runFrom64_of_isReading (hreading : s.isReading = true) (src : Source)
    : s.runFrom64 oracle src
        =
      match src.readLine64 (.ofNat s.settings.maxCommandLength) with
      | none => none
      | some (.error reason) => some (s.finish (.transport (.io reason)))
      | some (.ok (none, _)) => some (s.finish .peerClosed)
      | some (.ok (some frame, rest)) =>
        let step := s.handle oracle frame
        (runFrom64 oracle step.1 rest).map (.after step.2) := by
  rw [runFrom64, if_pos hreading]
  split <;> simp_all

theorem isReading_start (hcontrol : s.control.Faultless) : s.start.1.isReading = true := by
  have hsend := Channel.Roomy.send hcontrol.room_ne_zero s.out
    (Text.Utf8.encodeString (Reply.mk .serviceReady s.settings.welcome).encode)
  rw [hcontrol.faultIn_eq_none] at hsend
  unfold start
  rw [Step.fst_after, send_of_delivered _ _ _ hsend.fault?_eq]
  rfl

theorem runFrom64_eq (hlimit : s.settings.maxCommandLength + 1 < 2 ^ 64) (src : Source)
    : s.runFrom64 oracle src = some (s.runFrom oracle src) := by
  fun_induction runFrom oracle s src with
  | case1 s src hreading reason hline =>
    rw [runFrom64_of_isReading oracle hreading, Source.readLine64_of_room hlimit, hline]
  | case2 s src hreading rest hline =>
    rw [runFrom64_of_isReading oracle hreading, Source.readLine64_of_room hlimit, hline]
  | case3 s src hreading frame rest hline ih =>
    have hnext : (s.handle oracle frame).1.settings.maxCommandLength + 1 < 2 ^ 64 := by
      rw [(steady_handle oracle s frame).settings_eq]
      exact hlimit
    rw [runFrom64_of_isReading oracle hreading, Source.readLine64_of_room hlimit, hline]
    dsimp only
    rw [ih _ hnext]
    rfl
  | case4 s src hreading => rw [runFrom64, if_neg hreading]

theorem runFrom64_of_overflow (hlimit : s.settings.maxCommandLength + 1 = 2 ^ 64) (src : Source)
    : s.runFrom64 oracle src = if s.isReading then none else some (s, []) := by
  split
  . next hreading =>
    rw [runFrom64_of_isReading oracle hreading, Source.readLine64_of_overflow hlimit]
  . next hreading => rw [runFrom64, if_neg hreading]

theorem serveFrom64_eq_serve (hpos : 0 < s.settings.maxCommandLength)
    (hroom : s.settings.maxCommandLength + 1 < 2 ^ 64) (src : Source)
    : s.serveFrom64 oracle src = some (s.serve oracle src.inputs) := by
  have hsettings : s.start.1.settings = s.settings := (steady_start s).settings_eq
  have hrun := runFrom64_eq oracle (s := s.start.1) (by rwa [hsettings]) src
  rw [← serveFrom_eq_serve oracle s hpos src]
  unfold serveFrom64 serveFrom Step.andThen
  dsimp only
  rw [hrun]
  rfl

theorem serveFrom64_of_overflow (hlast : s.settings.maxCommandLength + 1 = 2 ^ 64)
    (hreading : s.start.1.isReading = true) (src : Source)
    : s.serveFrom64 oracle src = none := by
  have hsettings : s.start.1.settings = s.settings := (steady_start s).settings_eq
  have hrun := runFrom64_of_overflow oracle (s := s.start.1) (by rwa [hsettings]) src
  unfold serveFrom64
  dsimp only
  rw [hrun, if_pos hreading]
  rfl

theorem serveFrom64_eq (hlimit : s.settings.maxCommandLength < 2 ^ 64)
    (hpos : 0 < s.settings.maxCommandLength) (src : Source)
    : s.serveFrom64 oracle src
        =
      if s.settings.maxCommandLength + 1 = 2 ^ 64 ∧ s.start.1.isReading = true then
        none
      else
        some (s.serve oracle src.inputs) := by
  by_cases hroom : s.settings.maxCommandLength + 1 < 2 ^ 64
  . rw [if_neg (by omega), serveFrom64_eq_serve oracle hpos hroom src]
  . have hlast : s.settings.maxCommandLength + 1 = 2 ^ 64 := by omega
    split
    . next h => exact serveFrom64_of_overflow oracle hlast h.2 src
    . next h =>
      have hreading : ¬s.start.1.isReading = true := fun hreading => h ⟨hlast, hreading⟩
      have hsettings : s.start.1.settings = s.settings := (steady_start s).settings_eq
      have hrun := runFrom64_of_overflow oracle (s := s.start.1) (by rwa [hsettings]) src
      rw [← serveFrom_eq_serve oracle s hpos src]
      unfold serveFrom64 serveFrom Step.andThen
      dsimp only
      rw [hrun, if_neg hreading, runFrom, if_neg hreading]
      rfl

theorem serveFrom64_of_largest (hlast : s.settings.maxCommandLength + 1 = 2 ^ 64)
    (hcontrol : s.control.Faultless) (src : Source) : s.serveFrom64 oracle src = none :=
  serveFrom64_of_overflow oracle hlast (isReading_start hcontrol) src

end Session

end FtpControl
