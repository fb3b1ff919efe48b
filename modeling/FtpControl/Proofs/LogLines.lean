import FtpControl.Proofs.Decoding
import FtpControl.Proofs.Records
import FtpControl.Proofs.ReplyStream

/-!
This module contains the lines of the log. A record of a session is one line, whatever the peer sends
and whatever the backend says: what comes from outside is cut into lines, cut into tokens, flattened
or quoted before it gets into a record.
-/

namespace FtpControl

namespace Text

def Unbroken (s : String) : Prop :=
  '\n' ∉ s.toList

instance : DecidablePred Unbroken :=
  fun s => inferInstanceAs (Decidable ('\n' ∉ s.toList))

theorem Unbroken.of_subset {s t : String} (hs : Unbroken s) (h : t.toList ⊆ s.toList) : Unbroken t :=
  fun hmem => hs (h hmem)

theorem unbroken_append (s t : String) : Unbroken (s ++ t) ↔ Unbroken s ∧ Unbroken t := by
  unfold Unbroken
  rw [String.toList_append, List.mem_append, not_or]

theorem unbroken_toString (s : String) : Unbroken (toString s) ↔ Unbroken s := Iff.rfl

theorem Unbroken.fill {s : String} (h : Unbroken s) {opening : String} (hopening : Unbroken opening)
    : Unbroken (toString opening ++ toString s) := by
  rw [unbroken_append, unbroken_toString, unbroken_toString]
  exact ⟨hopening, h⟩

theorem lf_not_mem_toDigits {base : Nat} (hbase : 1 < base) (hhex : base ≤ 16) (n : Nat)
    : '\n' ∉ Nat.toDigits base n := by
  have hdigit : ∀ m < 16, '\n' ≠ Nat.digitChar m := by decide
  induction n using Nat.strong_induction_on with
  | _ n ih =>
    rw [Nat.toDigits_eq_if hbase]
    split
    . next hless =>
      rw [List.mem_singleton]
      exact hdigit n (by omega)
    . next hless =>
      have hlast : n % base < base := Nat.mod_lt n (by omega)
      rw [List.mem_append, List.mem_singleton, not_or]
      exact ⟨ih _ (Nat.div_lt_self (by omega) hbase), hdigit _ (by omega)⟩

theorem unbroken_toString_nat (n : Nat) : Unbroken (toString n) := by
  have hdigits : (toString n).toList = Nat.toDigits 10 n := by simp
  unfold Unbroken
  rw [hdigits]
  exact lf_not_mem_toDigits (by decide) (by decide) n

theorem unbroken_of_mem_words {s token : String} (h : token ∈ words s) : Unbroken token := by
  unfold words at h
  obtain ⟨cs, hcs, rfl⟩ := List.mem_map.1 h
  unfold Unbroken
  rw [String.toList_ofList]
  intro hmem
  have hflatten : '\n' ∈ (tokens s.toList).flatten := List.mem_flatten.2 ⟨cs, hcs, hmem⟩
  rw [flatten_tokens] at hflatten
  simp [isBlank_lf] at hflatten

theorem dropFinal_subset (c : Char) (cs : List Char) : dropFinal c cs ⊆ cs := by
  unfold dropFinal
  split
  . exact List.dropLast_subset cs
  . apply List.Subset.refl

theorem stripLineEnding_subset (line : String)
    : (stripLineEnding line).toList ⊆ (dropFinal '\n' line.toList) := by
  rw [stripLineEnding, String.toList_ofList]
  apply dropFinal_subset

theorem unbroken_stripLineEnding {bytes : List UInt8} (h : 0x0A ∉ bytes.dropLast)
    : Unbroken (stripLineEnding (Utf8.decodeString bytes)) := by
  intro hmem
  replace hmem := stripLineEnding_subset _ hmem
  rcases List.eq_nil_or_concat' bytes with rfl | ⟨body, b, rfl⟩
  . contradiction
  . rw [List.dropLast_concat] at h
    by_cases hb : b = 0x0A
    . rw [hb, Utf8.decodeString, Utf8.decode, Utf8.decodeFrom_append_lf, String.toList_ofList,
        dropFinal, List.getLast?_concat, if_pos rfl, List.dropLast_concat] at hmem
      have hbody := Utf8.lf_not_mem_decodeString h
      rw [Utf8.decodeString, String.toList_ofList] at hbody
      exact hbody hmem
    . have hbytes : 0x0A ∉ body ++ [b] := by
        rw [List.mem_append, List.mem_singleton, not_or]
        exact ⟨h, Ne.symm hb⟩
      exact Utf8.lf_not_mem_decodeString hbytes (dropFinal_subset _ _ hmem)

-- The line ending of a reply is trimmed with whatever blanks are in front of it.
theorem trimEnd_append_crlf_subset (s : String) : (trimEnd (s ++ "\r\n")).toList ⊆ s.toList := by
  have hreverse : (s ++ "\r\n").toList.reverse = '\n' :: '\r' :: s.toList.reverse := by
    simp
  rw [trimEnd, String.toList_ofList, hreverse, List.dropWhile_cons_of_pos isBlank_lf,
    List.dropWhile_cons_of_pos isBlank_cr]
  intro c hc
  exact List.mem_reverse.1 ((List.dropWhile_sublist _).subset (List.mem_reverse.1 hc))

namespace Quoted

theorem lf_not_mem_escape (c : Char) : '\n' ∉ escape c := by
  unfold escape
  split
  any_goals decide
  next hlf _ _ =>
    split
    . have hdigits := lf_not_mem_toDigits (show 1 < 16 by decide) (by decide) c.toNat
      simp [hdigits]
    . rw [List.mem_singleton]
      rintro rfl
      exact hlf rfl

theorem unbroken_quote (s : String) : Unbroken (quote s) := by
  unfold Unbroken quote
  rw [String.toList_ofList]
  simp [lf_not_mem_escape]

end Quoted

end Text

open Text

theorem Duration.unbroken_text (d : Duration) : Unbroken d.text := by
  have hfraction : ∀ n scale, Unbroken (fraction n scale) := by
    intro n scale
    unfold fraction
    split
    . decide
    . rw [unbroken_append]
      refine ⟨by decide, ?_⟩
      apply (unbroken_toString_nat (scale + n)).of_subset
      rw [String.toList_ofList]
      intro c hc
      apply List.drop_subset 1
      exact List.mem_reverse.1 ((List.dropWhile_sublist _).subset (List.mem_reverse.1 hc))
  have hunit : ∀ scale unit, Unbroken unit → Unbroken (d.inUnit scale unit) := by
    intro scale unit h
    rw [inUnit, unbroken_append, unbroken_append]
    exact ⟨⟨unbroken_toString_nat _, hfraction _ _⟩, h⟩
  unfold text
  (repeat' split) <;> exact hunit _ _ (by decide)

theorem AuthError.unbroken_message {e : AuthError}
    (h : ∀ reason, e = .backendFailed reason → Unbroken reason) : Unbroken e.message := by
  cases e with
  | timedOut limit => exact limit.unbroken_text.fill (by simp [Unbroken])
  | backendFailed reason => exact (h reason rfl).fill (by simp [Unbroken])

theorem Authenticator.unbroken_crashReason (message : Option String)
    : Unbroken (crashReason message) := by
  cases message with
  | none =>
    change Unbroken "task N panicked"
    simp [Unbroken]
  | some text => exact (Quoted.unbroken_quote text).fill (by simp [Unbroken])

theorem Authenticator.unbroken_of_consult {auth : Authenticator} {backend : Backend}
    {past : List Call} {call : Call} {e : AuthError}
    (h : some (.error e) = auth.consult backend past call) : Unbroken e.message := by
  apply AuthError.unbroken_message
  rintro reason rfl
  unfold consult at h
  cases hverdict : backend past call with
  | granted =>
    rw [hverdict] at h
    cases h
  | denied =>
    rw [hverdict] at h
    cases h
  | crashed message =>
    rw [hverdict] at h
    cases h
    exact unbroken_crashReason message
  | silent =>
    rw [hverdict] at h
    obtain ⟨limit, _, hlimit⟩ := Option.map_eq_some_iff.1 h.symm
    cases hlimit

namespace Frame

def Lined : Frame → Prop
  | line bytes => Framer.lf ∉ bytes.dropLast
  | overLong kept => Framer.lf ∉ kept

theorem Lined.unbroken {frame : Frame} (h : frame.Lined)
    : Unbroken (stripLineEnding (SessionSettings.text frame)) := by
  cases frame with
  | line bytes => exact unbroken_stripLineEnding h
  | overLong kept =>
    apply unbroken_stripLineEnding
    exact fun hmem => h (List.dropLast_subset kept hmem)

end Frame

namespace Framer

def Unended : Framer → Prop
  | collecting held _ => lf ∉ held
  | draining kept _ => lf ∉ kept

def Progress.Proper (inputs : List Input) : Progress → Prop
  | .more framer => framer.Unended
  | .frame found => found.Lined
  | .closed => True
  | .failed reason => .failure reason ∈ inputs

theorem proper_overflow (limit : Nat) {held : List UInt8} (h : lf ∉ held) (b : UInt8)
    (inputs : List Input) : (overflow limit held.reverse b).Proper inputs := by
  have hkept : lf ∉ held.reverse := by rwa [List.mem_reverse]
  unfold overflow
  split
  . exact hkept
  . exact hkept

theorem proper_step (limit : Nat) {framer : Framer} (h : framer.Unended) (input : Input)
    (rest : List Input) : (framer.step limit input).Proper (input :: rest) := by
  unfold step
  split
  . exact proper_overflow limit h _ _
  . next held room b =>
    split
    . change lf ∉ (b :: held).reverse.dropLast
      rw [List.reverse_cons, List.dropLast_concat, List.mem_reverse]
      exact h
    . next hb =>
      change lf ∉ b :: held
      rw [List.mem_cons, not_or]
      exact ⟨Ne.symm hb, h⟩
  . trivial
  . change lf ∉ List.dropLast _
    intro hmem
    exact h (List.mem_reverse.1 (List.dropLast_subset _ hmem))
  . split
    . exact h
    . exact h
  . exact h
  . exact h
  . exact .head _

theorem proper_scan {limit : Nat} {framer : Framer} (h : framer.Unended) {inputs rest : List Input}
    {progress : Progress} (hscan : scan limit framer inputs = some (progress, rest))
    : progress.Proper inputs ∧ rest <:+ inputs := by
  induction inputs generalizing framer with
  | nil => contradiction
  | cons input inputs ih =>
    have hstep := proper_step limit h input inputs
    unfold scan at hscan
    split at hscan
    . next next hmore =>
      rw [hmore] at hstep
      obtain ⟨hproper, hrest⟩ := ih hstep hscan
      refine ⟨?_, hrest.trans (List.suffix_cons input inputs)⟩
      cases progress with
      | failed reason => exact .tail _ hproper
      | _ => exact hproper
    . rw [Option.some.injEq, Prod.mk.injEq] at hscan
      obtain ⟨rfl, rfl⟩ := hscan
      exact ⟨hstep, List.suffix_cons input inputs⟩

theorem Parses.lined {limit : Nat} {inputs : List Input} {frames : List Frame} {ending : Reason}
    (h : Parses limit inputs frames ending)
    : (∀ frame ∈ frames, frame.Lined)
        ∧
      (ending = .peerClosed
        ∨
      ∃ reason, .failure reason ∈ inputs ∧ ending = .transport (.io reason)) := by
  have hfresh : (fresh limit).Unended := List.not_mem_nil
  induction h with
  | @ended inputs rest progress ending hscan hending =>
    refine ⟨nofun, ?_⟩
    have hproper := (proper_scan hfresh hscan).1
    cases progress with
    | closed => exact .inl (Option.some.inj hending).symm
    | failed reason => exact .inr ⟨reason, hproper, (Option.some.inj hending).symm⟩
    | _ => contradiction
  | @frame inputs rest frame frames ending hscan hrest ih =>
    obtain ⟨hproper, hsuffix⟩ := proper_scan hfresh hscan
    refine ⟨List.forall_mem_cons.2 ⟨hproper, ih.1⟩, ?_⟩
    rcases ih.2 with hclosed | ⟨reason, hmem, hending⟩
    . exact .inl hclosed
    . exact .inr ⟨reason, hsuffix.subset hmem, hending⟩

end Framer

namespace Turn

theorem unbroken_shown {line : String} (h : Unbroken (stripLineEnding line))
    : Unbroken (shown line) := by
  unfold shown
  split
  . rw [unbroken_append]
    refine ⟨?_, by simp [Unbroken]⟩
    cases hwords : words line with
    | nil => simp [Unbroken]
    | cons token args =>
      apply unbroken_of_mem_words (s := line)
      rw [hwords]
      exact .head _
  . exact h

theorem unbroken_of_verb {verb : String} (h : verb = "USER" ∨ verb = "PASS") : Unbroken verb := by
  rcases h with rfl | rfl <;> simp [Unbroken]

theorem unbroken_requestNote (limit : Nat) {frame : Frame} (h : frame.Lined)
    : Unbroken (requestNote limit frame).text := by
  unfold requestNote
  split
  . next verb hrefused =>
    dsimp only
    rw [unbroken_append, unbroken_append, unbroken_append, unbroken_toString]
    exact ⟨⟨⟨unbroken_of_verb (verb_of_refused? hrefused), by simp [Unbroken, toString]⟩,
      unbroken_toString_nat limit⟩, by simp [Unbroken, toString]⟩
  . exact (unbroken_shown h.unbroken).fill (by simp [Unbroken])

theorem unbroken_of_shortfall? {line : String} {note : Note} (h : shortfall? line = some note)
    : Unbroken note.text := by
  unfold shortfall? at h
  split at h
  . next verb required given hrequest =>
    rw [← Option.some.inj h]
    dsimp only
    rw [unbroken_append, unbroken_append, unbroken_append, unbroken_append, unbroken_toString]
    exact ⟨⟨⟨⟨unbroken_of_verb (verb_of_incomplete hrequest), by simp [Unbroken, toString]⟩,
      unbroken_toString_nat required⟩, by simp [Unbroken, toString]⟩, unbroken_toString_nat given⟩
  . contradiction

theorem unbroken_requestNotes (limit : Nat) {frame : Frame} (h : frame.Lined)
    : ∀ note ∈ requestNotes limit frame, Unbroken note.text := by
  intro note hnote
  rcases List.mem_cons.1 hnote with rfl | hshort
  . exact unbroken_requestNote limit h
  . split at hshort
    . contradiction
    . exact unbroken_of_shortfall? (Option.mem_toList.1 hshort)

theorem unbroken_verdict {user : String} (h : Unbroken user) (answer : Answer)
    : Unbroken (verdict user answer).text := by
  unfold verdict
  split
  . dsimp only
    rw [unbroken_append]
    exact ⟨h.fill (by simp [Unbroken]), by simp [Unbroken, toString]⟩
  . exact h.fill (by simp [Unbroken])

theorem unbroken_of_failure? {user : String} (h : Unbroken user) {answer : Answer}
    (hanswer : ∀ e, answer = .error e → Unbroken e.message) {note : Note}
    (hnote : failure? user answer = some note) : Unbroken note.text := by
  unfold failure? at hnote
  split at hnote
  . next e =>
    rw [← Option.some.inj hnote]
    dsimp only
    rw [unbroken_append, unbroken_append, unbroken_toString e.message]
    exact ⟨⟨h.fill (by simp [Unbroken]), by simp [Unbroken, toString]⟩, hanswer e rfl⟩
  . contradiction

theorem unbroken_checkNotes {check : Call × Option Answer} (huser : Unbroken check.1.user)
    (hanswer : ∀ e, check.2 = some (.error e) → Unbroken e.message)
    : ∀ note ∈ checkNotes check, Unbroken note.text := by
  unfold checkNotes
  cases hcheck : check.2 with
  | none => nofun
  | some answer =>
    intro note hnote
    rcases List.mem_append.1 hnote with hfailure | hverdict
    . apply unbroken_of_failure? huser _ (Option.mem_toList.1 hfailure)
      rintro e rfl
      exact hanswer e hcheck
    . rw [List.mem_singleton.1 hverdict]
      exact unbroken_verdict huser answer

theorem unbroken_replyNote (reply : Reply) : Unbroken (replyNote reply).text := by
  have hline : Unbroken s!"{reply.code.number} {flatten reply.text}" := by
    rw [unbroken_append, unbroken_append, unbroken_toString (flatten reply.text)]
    exact ⟨⟨unbroken_toString_nat _, by simp [Unbroken, toString]⟩, (onOneLine_flatten _).2⟩
  rw [replyNote, Reply.encode_eq]
  exact (hline.of_subset (trimEnd_append_crlf_subset _)).fill (by simp [Unbroken])

end Turn

theorem Channel.unbroken_of_complaint? {ch : Channel} {label : String} (hlabel : Unbroken label)
    (h : ∀ operation n reason, ch.fault operation n = some reason → Unbroken reason) {note : Note}
    (hnote : ch.complaint? label = some note) : Unbroken note.text := by
  rw [complaint?, Option.map_eq_some_iff] at hnote
  obtain ⟨reason, hreason, rfl⟩ := hnote
  dsimp only
  rw [unbroken_append, unbroken_append, unbroken_toString, unbroken_toString reason]
  exact ⟨⟨hlabel, by simp [Unbroken, toString]⟩, h _ _ _ hreason⟩

theorem Session.unbroken_endingNote {reason : Reason}
    (h : ∀ text, reason = .transport (.io text) → Unbroken text)
    : Unbroken (endingNote reason).text := by
  have hreason : Unbroken reason.told := by
    unfold Reason.told
    split
    . simp [Unbroken]
    . simp [Unbroken]
    . next text =>
      rw [unbroken_append]
      exact ⟨by simp [Unbroken], h text rfl⟩
  rw [endingNote, unbroken_append]
  exact ⟨by simp [Unbroken], hreason⟩

namespace Session

open Turn

theorem mem_notes_cases {limit : Nat} {turn : Turn} {note : Note}
    (h : note ∈ turn.notes limit)
    : note ∈ requestNotes limit turn.frame
        ∨
      (∃ check, turn.check? = some check ∧ note ∈ checkNotes check)
        ∨
      ∃ reply : Reply, note = replyNote reply := by
  rw [notes, List.mem_append, List.mem_append] at h
  rcases h with (hrequest | hcheck) | hreply
  . exact .inl hrequest
  . cases hcheck? : turn.check? with
    | none =>
      rw [hcheck?] at hcheck
      contradiction
    | some check =>
      rw [hcheck?] at hcheck
      exact .inr (.inl ⟨check, rfl, hcheck⟩)
  . obtain ⟨reply, _, hnote⟩ := List.mem_map.1 hreply
    exact .inr (.inr ⟨reply, hnote.symm⟩)

theorem unbroken_lastNotes {control : Channel} {data : Option Channel} {reason : Reason}
    (hcontrol : ∀ operation n text, control.fault operation n = some text → Unbroken text)
    (hdata : ∀ ch, data = some ch
      → ∀ operation n text, ch.fault operation n = some text → Unbroken text)
    (hreason : ∀ text, reason = .transport (.io text) → Unbroken text)
    : ∀ note ∈ lastNotes control data reason, Unbroken note.text := by
  intro note hnote
  rw [lastNotes, List.mem_append, List.mem_append, List.mem_singleton] at hnote
  rcases hnote with (hnote | hnote) | hnote
  . exact Channel.unbroken_of_complaint? (by simp [Unbroken]) hcontrol (Option.mem_toList.1 hnote)
  . obtain ⟨ch, hch, hcomplaint⟩ := Option.bind_eq_some_iff.1 (Option.mem_toList.1 hnote)
    exact Channel.unbroken_of_complaint? (by simp [Unbroken]) (hdata ch hch) hcomplaint
  . rw [hnote]
    exact unbroken_endingNote hreason

theorem unbroken_of_gives {ch : Channel}
    (h : ∀ operation n text, ch.fault operation n = some text → Unbroken text)
    {operation : Operation} {reason : String} (hgives : ch.Gives operation reason)
    : Unbroken reason := by
  rcases hgives with ⟨n, hfault⟩ | ⟨_, rfl⟩
  . exact h operation n reason hfault
  . simp [Unbroken]

theorem eq_of_last_phaseBy {ending reason : Reason} {closes : Bool} (xs : List (Exchange Frame))
    (h : Exchange.last (·.phaseBy ending) (.ended (if closes then .closeRequested else ending)) xs
      = .ended reason)
    : reason = .closeRequested ∨ reason = ending := by
  have hchoice : ∀ {closes : Bool},
      Phase.ended (if closes then .closeRequested else ending) = .ended reason
        → reason = .closeRequested ∨ reason = ending := by
    intro closes heq
    cases heq
    cases closes
    . exact .inr rfl
    . exact .inl rfl
  rcases List.eq_nil_or_concat' xs with rfl | ⟨before, x, rfl⟩
  . exact hchoice h
  . rw [Exchange.last, List.getLast?_concat, Option.map_some, Option.getD_some] at h
    unfold Exchange.phaseBy at h
    split at h
    . exact hchoice h
    . contradiction
    . contradiction

theorem Course.unbroken_reason {oracle : Action.Oracle} {s : Session} {ending : Reason}
    {response : Response} {frames : List Frame} {sent : Bool} {told : List (Exchange Frame × Bool)}
    {fault? : Option (Operation × String)} {step : Step}
    (h : s.Course oracle ending response frames sent told fault? step)
    (hcontrol : ∀ operation n text, s.control.fault operation n = some text → Unbroken text)
    (hending : ∀ text, ending = .transport (.io text) → Unbroken text) {reason : Reason}
    (hreason : step.1.phase = .ended reason)
    : ∀ text, reason = .transport (.io text) → Unbroken text := by
  rintro text rfl
  have hphase := h.phase_eq
  rw [hreason] at hphase
  cases fault? with
  | some fault =>
    cases hphase
    exact unbroken_of_gives hcontrol (h.gives fault rfl)
  | none =>
    rcases eq_of_last_phaseBy _ hphase.symm with hclose | heq
    . contradiction
    . exact hending text heq.symm

theorem unbroken_notes_of_course {limit : Nat} {auth : Authenticator} {backend : Backend}
    {told : List (Exchange Frame × Bool)} {turns : List Turn}
    (h : Lists limit (auth.consult backend) [] told turns)
    (hframes : ∀ turn ∈ turns, turn.frame.Lined)
    : ∀ turn ∈ turns, ∀ note ∈ turn.notes limit, Unbroken note.text := by
  intro turn hturn note hnote
  rcases mem_notes_cases hnote with hrequest | ⟨check, hcheck?, hcheck⟩ | ⟨reply, rfl⟩
  . exact unbroken_requestNotes limit (hframes turn hturn) note hrequest
  . obtain ⟨line, hline⟩ := h.user_mem turn hturn check hcheck?
    obtain ⟨earlier, hanswer⟩ := answer?_of_mem h.answered check
      (List.mem_filterMap.2 ⟨turn, hturn, hcheck?⟩)
    apply unbroken_checkNotes (unbroken_of_mem_words hline) _ note hcheck
    intro e he
    rw [he] at hanswer
    exact Authenticator.unbroken_of_consult hanswer
  . exact unbroken_replyNote reply

/--
Whatever the peer sends, the backend answers and the greeting says, a record is one line: nothing but
the reasons of the transport gets into it as it is.
-/
theorem serve_records_one_line (welcome : String) (limit : Nat) (auth : Authenticator)
    (backend : Backend) (control : Channel) (data : Option Channel) (inputs : List Input)
    (log : ConnectionLog)
    (hcontrol : ∀ operation n reason,
      control.fault operation n = some reason → '\n' ∉ reason.toList)
    (hdata : ∀ ch, data = some ch
      → ∀ operation n reason, ch.fault operation n = some reason → '\n' ∉ reason.toList)
    (hinputs : ∀ reason, .failure reason ∈ inputs → '\n' ∉ reason.toList)
    : let s : Session := { settings := { welcome, maxCommandLength := limit, auth }, control, data }
      let served := s.serve (auth.consult backend) inputs
      ∀ record ∈ log.records served.2,
        record.target = log.target
          ∧
        ∃ text,
          record.text = s!"[#{log.session} {log.peer}] " ++ text
            ∧
          '\n' ∉ text.toList := by
  intro s served
  obtain ⟨frames, ending, sent, told, fault?, step, hparses, hcourse, hserved⟩ :=
    exists_course_serve (s := s) (auth.consult backend) rfl inputs
  have hregistry : s.settings.registry = .withLogin := rfl
  obtain ⟨turns, hturns⟩ := exists_lists hregistry named_initial hcourse.exchanges_eq
  have hvisible := hcourse.visible_eq_journal hturns log
  rw [← hserved] at hvisible
  obtain ⟨hlined, hending⟩ := hparses.lined
  have hframes : ∀ turn ∈ turns, turn.frame.Lined := by
    intro turn hturn
    apply hlined
    apply hcourse.request_prefix.subset
    rw [← hturns.frame_eq]
    exact List.mem_map_of_mem hturn
  have hending' : ∀ text, ending = .transport (.io text) → Unbroken text := by
    rintro text rfl
    rcases hending with hclosed | ⟨reason, hmem, heq⟩
    . contradiction
    . cases heq
      apply hinputs text
      simpa [lastingEnd] using hmem
  have hnotes : ∀ note ∈ served.2.filterMap Event.note?, Unbroken note.text := by
    intro note hnote
    rw [show served.2.filterMap Event.note? = _ from notes_of_journal hvisible, List.mem_append,
      List.mem_append, List.mem_cons] at hnote
    rcases hnote with ((rfl | hgreeting) | hturn) | hlast
    . simp [Unbroken]
    . obtain ⟨reply, _, rfl⟩ := List.mem_map.1 hgreeting
      exact unbroken_replyNote reply
    . obtain ⟨turn, hturn, hnote⟩ := List.mem_flatMap.1 hturn
      exact unbroken_notes_of_course hturns hframes turn hturn note hnote
    . cases htermination : step.1.termination? log with
      | none =>
        rw [htermination] at hlast
        contradiction
      | some termination =>
        rw [htermination] at hlast
        have hphase := phase_of_termination? htermination
        exact unbroken_lastNotes hcontrol hdata
          (hcourse.unbroken_reason hcontrol hending' hphase) note hlast
  intro record hrecord
  rw [records_eq] at hrecord
  obtain ⟨note, hnote, rfl⟩ := List.mem_map.1 hrecord
  exact ⟨rfl, note.text, rfl, hnotes note hnote⟩

theorem serve_records_one_line_of_line_breaks
    : let auth : Authenticator := {}
      let backend : Backend := .ofFunction fun _ => .crashed "a\nb"
      let control : Channel :=
        { name := "control"
          fault := fun operation n =>
            if operation = .shutdown ∧ n = 0 then some "not connected" else none }
      let s : Session :=
        { settings := { welcome := "hi\n[#2 forged] x", maxCommandLength := 64, auth }, control }
      let served := s.serve (auth.consult backend)
        ((Text.Utf8.encodeString "USER a\rb\nPASS x\n\n").map .byte ++ [.failure "broken pipe"])
      let log : ConnectionLog := ⟨"rax_ftp", 1, "[::1]:1"⟩
      (∀ operation n reason, control.fault operation n = some reason → '\n' ∉ reason.toList)
        ∧
      ∀ record ∈ log.records served.2,
        record.target = log.target
          ∧
        ∃ text,
          record.text = s!"[#{log.session} {log.peer}] " ++ text
            ∧
          '\n' ∉ text.toList := by
  intro auth backend control s served log
  have hcontrol : ∀ operation n reason,
      control.fault operation n = some reason → '\n' ∉ reason.toList := by
    intro operation n reason hfault
    have hreason : "not connected" = reason := by
      simp only [control] at hfault
      split at hfault
      . exact Option.some.inj hfault
      . contradiction
    rw [← hreason]
    decide
  have hlines := serve_records_one_line "hi\n[#2 forged] x" 64 auth backend control none
    ((Text.Utf8.encodeString "USER a\rb\nPASS x\n\n").map .byte ++ [.failure "broken pipe"]) log
    hcontrol nofun (by simp)
  refine ⟨hcontrol, ?_⟩
  intro record hrecord
  exact hlines record hrecord

end Session

end FtpControl
