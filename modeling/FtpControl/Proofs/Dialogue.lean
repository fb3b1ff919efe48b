import FtpControl.Proofs.Ending
import FtpControl.Proofs.Sending

/-!
This module contains sessions as dialogues. A reply goes out, the next request is worked on, and so
the next reply is ready; a dialogue is over behind a reply that closes, behind a request without a
reply, or at the end of the requests.
-/

namespace FtpControl

namespace Exchange

variable {ρ : Type}

def work (x : Exchange Frame) : List Event :=
  .received x.request :: x.outcome.events

def phaseBy (ending : Reason) (x : Exchange ρ) : Phase :=
  match x.outcome.stop with
  | .done (_, response) => .ended (if response.closes then .closeRequested else ending)
  | .waiting resume => .checking resume
  | .crashed => .crashed

theorem phaseBy_of_done (ending : Reason) {x : Exchange ρ} {st : SessionState}
    {response : Response} (h : x.outcome.stop = .done (st, response))
    : x.phaseBy ending = .ended (if response.closes then .closeRequested else ending) := by
  unfold phaseBy
  rw [h]

theorem phaseBy_of_response? (ending : Reason) {x : Exchange ρ} (h : x.response? = none)
    : x.phaseBy ending = x.phase := by
  rcases phase_of_response? h with ⟨resume, hstop, hphase⟩ | ⟨hstop, hphase⟩
  . rw [hphase, phaseBy, hstop]
  . rw [hphase, phaseBy, hstop]

def replies (response : Response) (xs : List (Exchange ρ)) : List Reply :=
  response.reply :: (xs.filterMap (·.response?)).map (·.reply)

theorem map_wire_replies (response : Response) (xs : List (Exchange ρ))
    : (replies response xs).map (·.wire)
        =
      response.reply.wire :: (xs.filterMap (·.response?)).map (·.reply.wire) := by
  rw [replies, List.map_cons, List.map_map]
  rfl

theorem length_replies_le (response : Response) (xs : List (Exchange ρ))
    : (replies response xs).length ≤ xs.length + 1 := by
  unfold replies
  rw [List.length_cons, List.length_map]
  have hlength := List.length_filterMap_le (fun x : Exchange ρ => x.response?) xs
  omega

theorem replies_cons (response : Response) {x : Exchange ρ} {next : Response}
    (hnext : x.response? = some next) (xs : List (Exchange ρ))
    : replies response (x :: xs) = response.reply :: replies next xs := by
  rw [replies, List.filterMap_cons_some hnext]
  rfl

inductive Dialogue (answer : ρ → SessionState → Action (SessionState × Response))
    (oracle : Action.Oracle)
    : SessionState → List Call → Response → List ρ → List (Exchange ρ) → Prop
  | closed {st : SessionState} {past : List Call} {response : Response} {requests : List ρ}
      (hcloses : response.closes = true)
    : Dialogue answer oracle st past response requests []
  | idle {st : SessionState} {past : List Call} {response : Response}
      (hopen : response.closes = false)
    : Dialogue answer oracle st past response [] []
  | stuck {st : SessionState} {past : List Call} {response : Response} {request : ρ}
      {requests : List ρ} (hopen : response.closes = false)
      (hnone : (exchange answer oracle st past request).response? = none)
    : Dialogue answer oracle st past response (request :: requests)
        [exchange answer oracle st past request]
  | answered {st : SessionState} {past : List Call} {response next : Response} {request : ρ}
      {requests : List ρ} {xs : List (Exchange ρ)} (hopen : response.closes = false)
      (hnext : (exchange answer oracle st past request).response? = some next)
      (hrest : Dialogue answer oracle (exchange answer oracle st past request).after
        (exchange answer oracle st past request).outcome.calls next requests xs)
    : Dialogue answer oracle st past response (request :: requests)
        (exchange answer oracle st past request :: xs)

variable {answer : ρ → SessionState → Action (SessionState × Response)} {oracle : Action.Oracle}
  {st : SessionState} {past : List Call} {response : Response} {requests : List ρ}
  {xs : List (Exchange ρ)}

theorem dialogue_upToClose (hopen : response.closes = false) (requests : List ρ)
    : Dialogue answer oracle st past response requests
        (upToClose (exchanges answer oracle st past requests)) := by
  induction requests generalizing st past response with
  | nil => exact .idle hopen
  | cons request requests ih =>
    cases hresponse : (exchange answer oracle st past request).response? with
    | none =>
      rw [exchanges_cons_of_none _ _ _ _ _ _ hresponse, upToClose_singleton]
      exact .stuck hopen hresponse
    | some next =>
      rw [exchanges_cons_of_some _ _ _ _ _ _ hresponse]
      have hclosing := closes_of_done (done_of_response? hresponse)
      cases hcloses : next.closes with
      | true =>
        rw [upToClose_cons_of_closes _ _ (hclosing.trans hcloses)]
        exact .answered hopen hresponse (.closed hcloses)
      | false =>
        rw [upToClose_cons_of_not_closes _ _ (hclosing.trans hcloses)]
        exact .answered hopen hresponse (ih hcloses)

namespace Dialogue

theorem exchanges_eq (h : Dialogue answer oracle st past response requests xs)
    : exchanges answer oracle st past (xs.map (·.request)) = xs := by
  induction h with
  | closed hcloses => rfl
  | idle hopen => rfl
  | @stuck st past response request requests hopen hnone =>
    exact exchanges_cons_of_none answer oracle st past request [] hnone
  | @answered st past response next request requests xs hopen hnext hrest ih =>
    have hcons := exchanges_cons_of_some answer oracle st past request (xs.map (·.request)) hnext
    rw [ih] at hcons
    exact hcons

end Dialogue

end Exchange

namespace Session

variable {oracle : Action.Oracle} {s : Session}

def converse (oracle : Action.Oracle) (ending : Reason) (s : Session) (response : Response)
    (frames : List Frame) : Step :=
  (s.respond response).andThen fun s => s.answerUntil oracle ending frames

def awaiting (s : Session) (reply : Reply) : Session :=
  { s with
    out := s.outAfter reply
    phase := .reading (.fresh s.settings.maxCommandLength) }

def behind (oracle : Action.Oracle) (s : Session) (reply : Reply) (frame : Frame) : Session :=
  { s.awaiting reply with
    calls := (s.exchange oracle frame).outcome.calls
    state := (s.exchange oracle frame).after }

theorem converse_of_fault (ending : Reason) (response : Response) (frames : List Frame)
    {reason : String} (h : (s.control.send s.out response.reply.wire).fault? = some reason)
    : s.converse oracle ending response frames
        =
      (({ s with out := s.outAfter response.reply } : Session).finish
        (.transport (.io reason))).after (s.control.send s.out response.reply.wire).events := by
  unfold converse respond
  rw [send_of_fault s response.reply _ reason h, Step.after_andThen, Step.andThen_of_idle]
  . rfl
  . exact answerUntil_of_not_isReading ending frames rfl

def sent (s : Session) (reply : Reply) : List Event :=
  (s.control.send s.out reply.wire).events ++ [.noted (.reply reply.encode)]

section

variable {response : Response} (ending : Reason)
  (hsend : (s.control.send s.out response.reply.wire).fault? = none)

include hsend

theorem converse_of_closes (hcloses : response.closes = true) (frames : List Frame)
    : s.converse oracle ending response frames
        =
      (({ s with out := s.outAfter response.reply } : Session).finish .closeRequested).after
        (s.sent response.reply) := by
  unfold converse respond
  rw [send_of_delivered s response.reply _ hsend, if_pos hcloses, Step.after_andThen,
    Step.andThen_of_idle]
  . rfl
  . exact answerUntil_of_not_isReading ending frames rfl

theorem converse_of_open (hopen : response.closes = false) (frames : List Frame)
    : s.converse oracle ending response frames
        =
      ((s.awaiting response.reply).answerUntil oracle ending frames).after
        (s.sent response.reply) := by
  unfold converse respond
  rw [send_of_delivered s response.reply _ hsend, if_neg (by simp [hopen]), Step.after_andThen]
  rfl

theorem converse_of_stuck (hopen : response.closes = false) (frame : Frame) (frames : List Frame)
    (hnone : (s.exchange oracle frame).response? = none)
    : s.converse oracle ending response (frame :: frames)
        =
      ({ s with
          out := s.outAfter response.reply
          calls := (s.exchange oracle frame).outcome.calls
          phase := (s.exchange oracle frame).phase },
        s.sent response.reply ++ (s.exchange oracle frame).work) := by
  have hnot : ∀ s' : Session, s'.phase = (s.exchange oracle frame).phase
      → s'.isReading = false := by
    intro s' hs
    unfold isReading
    rw [hs]
    rcases Exchange.phase_of_response? hnone with ⟨resume, _, hphase⟩ | ⟨_, hphase⟩
    . rw [hphase]
    . rw [hphase]
  have hhandle := handle_of_stuck (s := s.awaiting response.reply) hnone
  rw [converse_of_open ending hsend hopen, answerUntil_cons ending frame frames rfl, hhandle,
    Step.andThen_of_idle]
  . rfl
  . apply answerUntil_of_not_isReading
    exact hnot _ rfl

theorem converse_of_answered (hopen : response.closes = false) (frame : Frame)
    (frames : List Frame) {next : Response}
    (hnext : (s.exchange oracle frame).response? = some next)
    : s.converse oracle ending response (frame :: frames)
        =
      ((s.behind oracle response.reply frame).converse oracle ending next frames).after
        (s.sent response.reply ++ (s.exchange oracle frame).work) := by
  have hhandle := handle_of_done (s := s.awaiting response.reply) (Exchange.done_of_response? hnext)
  rw [converse_of_open ending hsend hopen, answerUntil_cons ending frame frames rfl, hhandle,
    Step.after_andThen, Step.after_after]
  rfl

end

theorem sent_of_roomy (hroom : s.control.Roomy) (hout : s.out.unflushed = []) (reply : Reply)
    (hclear : s.control.faultIn (s.control.callsFor s.out reply.wire) = none)
    : (s.control.send s.out reply.wire).fault? = none
        ∧
      s.outAfter reply = s.control.behind s.out reply.wire
        ∧
      visible (s.sent reply) = Exchange.delivered reply := by
  have hsend := hroom.send s.out reply.wire
  rw [hclear] at hsend
  refine ⟨hsend.fault?_eq, hsend.out_eq rfl, ?_⟩
  rw [sent, visible_append, hsend.visible_eq, hout]
  rfl

theorem visible_work (oracle : Action.Oracle) (s : Session) (frame : Frame)
    : visible (s.exchange oracle frame).work = (s.exchange oracle frame).work := by
  rw [Exchange.work, visible_received_cons, visible_exchange]

theorem farewell_behind (oracle : Action.Oracle) (s : Session) (reply : Reply) (frame : Frame)
    (phase : Phase) : (s.behind oracle reply frame).farewell phase = s.farewell phase := by
  cases phase <;> rfl

/-- A step that does all of a dialogue and takes its leave. -/
structure Concludes (s : Session) (ending : Reason) (response : Response)
    (xs : List (Exchange Frame)) (step : Step) : Prop where
  state_eq : step.1.state = Exchange.last (·.after) s.state xs
  calls_eq : step.1.calls = Exchange.last (·.outcome.calls) s.calls xs
  phase_eq : step.1.phase = Exchange.last (·.phaseBy ending)
    (.ended (if response.closes then .closeRequested else ending)) xs
  visible_eq : visible step.2 = Exchange.delivered response.reply ++ xs.flatMap (·.trace)
    ++ s.farewell step.1.phase

section

variable {response : Response} (ending : Reason)
  (hsend : (s.control.send s.out response.reply.wire).fault? = none)
  (hsent : visible (s.sent response.reply) = Exchange.delivered response.reply)

include hsend hsent

theorem concludes_of_closes (hcloses : response.closes = true) (frames : List Frame)
    : s.Concludes ending response [] (s.converse oracle ending response frames) := by
  rw [converse_of_closes ending hsend hcloses]
  constructor
  . rfl
  . rfl
  . rw [hcloses]
    rfl
  . rw [Step.after, visible_append, hsent, visible_finish, List.flatMap_nil, List.append_nil]
    rfl

theorem concludes_of_open (hopen : response.closes = false)
    : s.Concludes ending response [] (s.converse oracle ending response []) := by
  rw [converse_of_open ending hsend hopen, answerUntil, if_pos (by rfl)]
  constructor
  . rfl
  . rfl
  . rw [hopen]
    rfl
  . rw [Step.after, visible_append, hsent, visible_finish, List.flatMap_nil, List.append_nil]
    rfl

theorem concludes_of_stuck (hopen : response.closes = false) (frame : Frame) (frames : List Frame)
    (hnone : (s.exchange oracle frame).response? = none)
    : s.Concludes ending response [s.exchange oracle frame]
        (s.converse oracle ending response (frame :: frames)) := by
  have hfarewell : s.farewell (s.exchange oracle frame).phase = [] := by
    rcases Exchange.phase_of_response? hnone with ⟨resume, _, hphase⟩ | ⟨_, hphase⟩
    . rw [hphase]
      rfl
    . rw [hphase]
      rfl
  rw [converse_of_stuck ending hsend hopen frame frames hnone]
  constructor
  . rw [Exchange.last_cons, Exchange.last_nil, Exchange.after_of_response? hnone]
    rfl
  . rfl
  . rw [Exchange.last_cons, Exchange.last_nil, Exchange.phaseBy_of_response? ending hnone]
  . rw [visible_append, hsent, visible_work, List.flatMap_singleton, Exchange.trace, hnone,
      hfarewell]
    simp [Exchange.work]

theorem concludes_of_answered (hopen : response.closes = false) (frame : Frame)
    (frames : List Frame) {next : Response}
    (hnext : (s.exchange oracle frame).response? = some next) {xs : List (Exchange Frame)}
    (hrest : (s.behind oracle response.reply frame).Concludes ending next xs
      ((s.behind oracle response.reply frame).converse oracle ending next frames))
    : s.Concludes ending response (s.exchange oracle frame :: xs)
        (s.converse oracle ending response (frame :: frames)) := by
  rw [converse_of_answered ending hsend hopen frame frames hnext]
  constructor
  . rw [Exchange.last_cons]
    exact hrest.state_eq
  . rw [Exchange.last_cons]
    exact hrest.calls_eq
  . rw [Exchange.last_cons, Exchange.phaseBy_of_done ending (Exchange.done_of_response? hnext)]
    exact hrest.phase_eq
  . rw [Step.after, visible_append, visible_append, hsent, visible_work, hrest.visible_eq,
      List.flatMap_cons, Exchange.trace, hnext]
    simp [Exchange.work, farewell_behind]

end

theorem converse_concludes (ending : Reason) {cfg : SessionSettings} {st : SessionState}
    {past : List Call} {response : Response} {frames : List Frame} {xs : List (Exchange Frame)}
    (h : Exchange.Dialogue cfg.dispatch oracle st past response frames xs)
    (hsettings : s.settings = cfg) (hstate : s.state = st) (hcalls : s.calls = past)
    (hroom : s.control.Roomy) (hout : s.out.unflushed = [])
    (hclear : ∀ calls ∈ s.control.schedule s.out ((Exchange.replies response xs).map (·.wire)),
      s.control.faultIn calls = none)
    : s.Concludes ending response xs (s.converse oracle ending response frames) := by
  -- A reply that is out leaves the sending side where the schedule for the other replies begins.
  induction h generalizing s with
  | @closed st past response frames hcloses =>
    obtain ⟨hsend, _, hsent⟩ := sent_of_roomy hroom hout response.reply (hclear _ (.head _))
    exact concludes_of_closes ending hsend hsent hcloses frames
  | @idle st past response hopen =>
    obtain ⟨hsend, _, hsent⟩ := sent_of_roomy hroom hout response.reply (hclear _ (.head _))
    exact concludes_of_open ending hsend hsent hopen
  | @stuck st past response frame frames hopen hnone =>
    subst hsettings hstate hcalls
    obtain ⟨hsend, _, hsent⟩ := sent_of_roomy hroom hout response.reply (hclear _ (.head _))
    exact concludes_of_stuck ending hsend hsent hopen frame frames hnone
  | @answered st past response next frame frames xs hopen hnext hrest ih =>
    subst hsettings hstate hcalls
    obtain ⟨hsend, hbehind, hsent⟩ := sent_of_roomy hroom hout response.reply (hclear _ (.head _))
    rw [Exchange.replies_cons response hnext] at hclear
    have hout' : (s.behind oracle response.reply frame).out
        = s.control.behind s.out response.reply.wire := hbehind
    apply concludes_of_answered ending hsend hsent hopen frame frames hnext
    apply ih (s := s.behind oracle response.reply frame) rfl rfl rfl hroom
    . rw [hout']
      rfl
    . rw [hout']
      exact fun calls hmem => hclear calls (.tail _ hmem)

theorem Concludes.filterMap_eq {α : Type} {ending : Reason} {response : Response}
    {xs : List (Exchange Frame)} {step : Step} (h : s.Concludes ending response xs step)
    (f : Event → Option α) (hwrote : ∀ bytes, f (.wrote bytes) = none)
    (hnoted : ∀ note, f (.noted note) = none)
    (hshutDown : ∀ channel clean, f (.shutDown channel clean) = none)
    : step.2.filterMap f
        =
      (f (.flushed response.reply.wire)).toList ++ (xs.flatMap (·.trace)).filterMap f := by
  rw [← filterMap_visible f hwrote, h.visible_eq, List.filterMap_append,
    filterMap_farewell f hnoted hshutDown, List.append_nil, List.filterMap_append,
    Exchange.filterMap_delivered f hnoted]

theorem Concludes.filterMap_call? {ending : Reason} {response : Response}
    {xs : List (Exchange Frame)} {step : Step} (h : s.Concludes ending response xs step)
    : step.2.filterMap Event.call? = xs.flatMap (·.calls) := by
  rw [h.filterMap_eq Event.call? (fun _ => rfl) (fun _ => rfl) (fun _ _ => rfl),
    Exchange.filterMap_call?_trace]
  rfl

section

variable {ending : Reason} {response : Response} {xs : List (Exchange Frame)} {step : Step}
  (h : s.Concludes ending response xs step)
  {answer : Frame → SessionState → Action (SessionState × Response)}
  (hxs : ∀ x ∈ xs, ∃ st past, x = FtpControl.exchange answer oracle st past x.request)

include h hxs

theorem Concludes.filterMap_frame? : step.2.filterMap Event.frame? = xs.map (·.request) := by
  rw [h.filterMap_eq Event.frame? (fun _ => rfl) (fun _ => rfl) (fun _ _ => rfl),
    Exchange.filterMap_frame?_trace hxs]
  rfl

theorem Concludes.filterMap_flushed?
    : step.2.filterMap Event.flushed? = (Exchange.replies response xs).map (·.wire) := by
  rw [h.filterMap_eq Event.flushed? (fun _ => rfl) (fun _ => rfl) (fun _ _ => rfl),
    Exchange.filterMap_flushed?_trace hxs, Exchange.map_wire_replies]
  rfl

end

theorem hear_of_parses (oracle : Action.Oracle) (s : Session) {inputs : List Input}
    {frames : List Frame} {ending : Reason}
    (hparses : Framer.Parses s.settings.maxCommandLength inputs frames ending)
    : s.hear oracle inputs
        =
      (s.converse oracle ending ⟨⟨.serviceReady, s.settings.welcome⟩, false⟩ frames).after
        [.noted .connectionEstablished] := by
  have hsteady := steady_start s
  have hstart : s.start = (s.respond ⟨⟨.serviceReady, s.settings.welcome⟩, false⟩).after
      [.noted .connectionEstablished] := rfl
  have hrun := run_of_parses oracle _ hsteady.atLine (by rw [hsteady.settings_eq]) hparses
  unfold hear converse
  rw [← Step.after_andThen, ← hstart]
  exact Step.andThen_congr hrun

end Session

end FtpControl
