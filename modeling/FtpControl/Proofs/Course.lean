import FtpControl.Proofs.Dialogue

/-!
This module contains the course of a session over any channel. A reply either goes out as a whole or
is the last thing that the session attempts, and the requests behind it are not worked on.
-/

namespace FtpControl

namespace Channel

def Gives (ch : Channel) (operation : Operation) (reason : String) : Prop :=
  (∃ n, ch.fault operation n = some reason) ∨ (operation = .write ∧ reason = "write zero")

structure Sent (bytes : List UInt8) (d : Delivery) : Prop where
  fault?_eq : d.fault? = none
  visible_eq : visible d.events = [.flushed bytes]
  unflushed_eq : d.out.unflushed = []

structure Breaks (ch : Channel) (operation : Operation) (reason : String) (d : Delivery) : Prop where
  gives : ch.Gives operation reason
  fault?_eq : d.fault? = some reason
  visible_eq : visible d.events = [.failed operation reason]

theorem write_total (ch : Channel) (out : Outbox) (bytes : List UInt8)
    : ((ch.write out bytes).fault? = none
        ∧
      visible (ch.write out bytes).events = []
        ∧
      (ch.write out bytes).out.unflushed = out.unflushed ++ bytes)
        ∨
      ∃ reason, ch.Breaks .write reason (ch.write out bytes) := by
  fun_induction Channel.write ch out bytes with
  | case1 out => exact .inl ⟨rfl, rfl, (List.append_nil _).symm⟩
  | case2 out b rest out' reason heq => exact .inr ⟨reason, .inl ⟨_, heq⟩, rfl, rfl⟩
  | case3 out b rest out' hfault heq => exact .inr ⟨_, .inr ⟨rfl, rfl⟩, rfl, rfl⟩
  | case4 out b rest out' hfault n heq piece out'' ih =>
    rcases ih with ⟨hfault?, hvisible, hunflushed⟩ | ⟨reason, hbreaks⟩
    . refine .inl ⟨hfault?, hvisible, ?_⟩
      rw [Delivery.after, hunflushed]
      simp [out'', out', piece]
    . exact .inr ⟨reason, hbreaks.gives, hbreaks.fault?_eq, hbreaks.visible_eq⟩

theorem send_total (ch : Channel) {out : Outbox} (hout : out.unflushed = []) (bytes : List UInt8)
    : Sent bytes (ch.send out bytes)
        ∨
      ∃ operation reason, ch.Breaks operation reason (ch.send out bytes) := by
  unfold send
  dsimp only
  rcases ch.write_total out bytes with ⟨hfault?, hvisible, hunflushed⟩ | ⟨reason, hbreaks⟩
  . rw [hfault?]
    rw [hout, List.nil_append] at hunflushed
    unfold flush
    dsimp only
    cases hflush : ch.fault .flush (ch.write out bytes).out.flushes with
    | some reason =>
      refine .inr ⟨.flush, reason, .inl ⟨_, hflush⟩, rfl, ?_⟩
      rw [visible_append, hvisible]
      rfl
    | none =>
      refine .inl ⟨rfl, ?_, rfl⟩
      rw [visible_append, hvisible, hunflushed]
      rfl
  . rw [hbreaks.fault?_eq]
    exact .inr ⟨.write, reason, hbreaks⟩

end Channel

namespace Exchange

def tale (x : Exchange Frame) (sent : Bool) : List Event :=
  x.work ++ if sent then (x.response?.map (·.reply)).elim [] delivered else []

theorem tale_of_response? {x : Exchange Frame} {response : Response}
    (h : x.response? = some response) (sent : Bool)
    : x.tale sent = x.work ++ if sent then delivered response.reply else [] := by
  rw [tale, h]
  rfl

end Exchange

namespace Session

variable {oracle : Action.Oracle} {s : Session}

/--
The course that a session takes from a response on: whether its reply got out, the requests that were
worked on, each with whether its reply got out, and the fault that ended it, if one did.
-/
structure Course (oracle : Action.Oracle) (s : Session) (ending : Reason) (response : Response)
    (frames : List Frame) (sent : Bool) (told : List (Exchange Frame × Bool))
    (fault? : Option (Operation × String)) (step : Step) : Prop where
  visible_eq : visible step.2
    = (if sent then Exchange.delivered response.reply else [])
        ++ told.flatMap (fun turn => turn.1.tale turn.2)
        ++ (fault?.map fun fault => .failed fault.1 fault.2).toList
        ++ s.farewell step.1.phase
  exchanges_eq : exchanges s.settings.dispatch oracle s.state s.calls (told.map (·.1.request))
    = told.map (·.1)
  request_prefix : told.map (·.1.request) <+: frames
  sent_of_mem : ∀ b ∈ (sent :: told.map (·.2)).dropLast, b = true
  fault?_isSome : fault?.isSome = !(sent :: told.map (·.2)).getLast (List.cons_ne_nil _ _)
  replied_of_fault : fault?.isSome = true → ∀ turn ∈ told, turn.1.response?.isSome = true
  gives : ∀ fault, fault? = some fault → s.control.Gives fault.1 fault.2
  phase_eq : step.1.phase = match fault? with
    | some fault => .ended (.transport (.io fault.2))
    | none => Exchange.last (·.phaseBy ending)
        (.ended (if response.closes then .closeRequested else ending)) (told.map (·.1))

section

variable {ending : Reason} {response : Response} {frames : List Frame}

theorem course_of_breaks (ending : Reason) (response : Response) (frames : List Frame)
    {operation : Operation} {reason : String}
    (h : s.control.Breaks operation reason (s.control.send s.out response.reply.wire))
    : s.Course oracle ending response frames false [] (some (operation, reason))
        (s.converse oracle ending response frames) := by
  rw [converse_of_fault ending response frames h.fault?_eq]
  constructor
  . rw [Step.after, visible_append, h.visible_eq, visible_finish]
    rfl
  . rfl
  . apply List.nil_prefix
  . simp
  . rfl
  . intro _ turn hturn
    contradiction
  . rintro _ ⟨⟩
    exact h.gives
  . rfl

theorem Concludes.course {xs : List (Exchange Frame)} {step : Step}
    (h : s.Concludes ending response xs step)
    (hxs : exchanges s.settings.dispatch oracle s.state s.calls (xs.map (·.request)) = xs)
    (hframes : xs.map (·.request) <+: frames)
    : s.Course oracle ending response frames true (xs.map fun x => (x, true)) none step := by
  have hfst : (xs.map fun x => (x, true)).map Prod.fst = xs := by
    rw [List.map_map]
    exact List.map_id xs
  have hsnd : (true :: (xs.map fun x => (x, true)).map Prod.snd)
      = List.replicate (xs.length + 1) true := by
    simp [List.replicate_succ, Function.comp_def]
  have hrequests : ((xs.map fun x => (x, true)).map fun told => told.1.request)
      = xs.map (·.request) := by simp
  constructor
  . rw [h.visible_eq, List.flatMap_map, Option.map_none, Option.toList_none, List.append_nil]
    rfl
  . rw [hfst, hrequests, hxs]
  . rwa [hrequests]
  . rw [hsnd, List.dropLast_replicate]
    intro b hb
    exact List.eq_of_mem_replicate hb
  . simp only [hsnd, List.getLast_replicate]
    rfl
  . nofun
  . nofun
  . rw [hfst]
    exact h.phase_eq

theorem Course.cons {frame : Frame} {next : Response} {sent : Bool}
    {told : List (Exchange Frame × Bool)} {fault? : Option (Operation × String)} {step : Step}
    (hnext : (s.exchange oracle frame).response? = some next)
    (h : (s.behind oracle response.reply frame).Course oracle ending next frames sent told fault?
      step)
    {events : List Event}
    (hevents : visible events
      = Exchange.delivered response.reply ++ (s.exchange oracle frame).work)
    : s.Course oracle ending response (frame :: frames) true
        ((s.exchange oracle frame, sent) :: told) fault? (step.after events) := by
  constructor
  . rw [Step.after, visible_append, hevents, h.visible_eq, List.flatMap_cons, farewell_behind]
    dsimp only
    rw [Exchange.tale_of_response? hnext]
    simp
  . rw [List.map_cons, List.map_cons]
    apply (exchanges_cons_of_some _ _ _ _ _ _ hnext).trans
    exact congrArg (_ :: ·) h.exchanges_eq
  . rw [List.map_cons]
    exact (List.prefix_cons_inj frame).2 h.request_prefix
  . rw [List.map_cons, List.dropLast_cons_of_ne_nil (List.cons_ne_nil _ _)]
    exact List.forall_mem_cons.2 ⟨rfl, h.sent_of_mem⟩
  . simp only [List.map_cons, List.getLast_cons (List.cons_ne_nil _ _)]
    exact h.fault?_isSome
  . intro hfault
    exact List.forall_mem_cons.2 ⟨by rw [hnext]; rfl, h.replied_of_fault hfault⟩
  . exact h.gives
  . rw [Step.fst_after, h.phase_eq, List.map_cons]
    cases fault? with
    | some fault => rfl
    | none =>
      rw [Exchange.last_cons, Exchange.phaseBy_of_done ending (Exchange.done_of_response? hnext)]

end

theorem visible_sent {reply : Reply}
    (h : Channel.Sent reply.wire (s.control.send s.out reply.wire))
    : visible (s.sent reply) = Exchange.delivered reply := by
  rw [sent, visible_append, h.visible_eq]
  rfl

theorem converse_course (ending : Reason) {cfg : SessionSettings} {st : SessionState}
    {past : List Call} {response : Response} {frames : List Frame} {xs : List (Exchange Frame)}
    (h : Exchange.Dialogue cfg.dispatch oracle st past response frames xs)
    (hsettings : s.settings = cfg) (hstate : s.state = st) (hcalls : s.calls = past)
    (hout : s.out.unflushed = [])
    : ∃ sent told fault?,
        s.Course oracle ending response frames sent told fault?
          (s.converse oracle ending response frames) := by
  -- A reply that got out leaves nothing unflushed, so the next one is on its own again.
  induction h generalizing s with
  | @closed st past response frames hcloses =>
    rcases s.control.send_total hout response.reply.wire with hsent | ⟨_, _, hbreaks⟩
    . have hconcludes : s.Concludes ending response [] (s.converse oracle ending response frames) :=
        concludes_of_closes ending hsent.fault?_eq (visible_sent hsent) hcloses frames
      exact ⟨true, _, none, hconcludes.course rfl List.nil_prefix⟩
    . exact ⟨false, _, _, course_of_breaks ending response frames hbreaks⟩
  | @idle st past response hopen =>
    rcases s.control.send_total hout response.reply.wire with hsent | ⟨_, _, hbreaks⟩
    . have hconcludes : s.Concludes ending response [] (s.converse oracle ending response []) :=
        concludes_of_open ending hsent.fault?_eq (visible_sent hsent) hopen
      exact ⟨true, _, none, hconcludes.course rfl List.nil_prefix⟩
    . exact ⟨false, _, _, course_of_breaks ending response [] hbreaks⟩
  | @stuck st past response frame frames hopen hnone =>
    subst hsettings hstate hcalls
    rcases s.control.send_total hout response.reply.wire with hsent | ⟨_, _, hbreaks⟩
    . have hconcludes := concludes_of_stuck ending hsent.fault?_eq (visible_sent hsent) hopen frame
        frames hnone
      refine ⟨true, _, none, hconcludes.course ?_ (List.prefix_append [frame] frames)⟩
      exact exchanges_cons_of_none _ _ _ _ frame [] hnone
    . exact ⟨false, _, _, course_of_breaks ending response (frame :: frames) hbreaks⟩
  | @answered st past response next frame frames xs hopen hnext hrest ih =>
    subst hsettings hstate hcalls
    rcases s.control.send_total hout response.reply.wire with hsent | ⟨_, _, hbreaks⟩
    . obtain ⟨sent, told, fault?, hcourse⟩ := ih (s := s.behind oracle response.reply frame)
        rfl rfl rfl hsent.unflushed_eq
      rw [converse_of_answered ending hsent.fault?_eq hopen frame frames hnext]
      refine ⟨true, _, fault?, hcourse.cons hnext ?_⟩
      rw [visible_append, visible_sent hsent, visible_work]
    . exact ⟨false, _, _, course_of_breaks ending response (frame :: frames) hbreaks⟩

theorem exists_course_serve (oracle : Action.Oracle) {s : Session} (hstate : s.out.unflushed = [])
    (inputs : List Input)
    : ∃ frames ending sent told fault? step,
        Framer.Parses s.settings.maxCommandLength (inputs ++ lastingEnd) frames ending
          ∧
        s.Course oracle ending ⟨⟨.serviceReady, s.settings.welcome⟩, false⟩ frames sent told fault?
          step
          ∧
        s.serve oracle inputs = step.after [.noted .connectionEstablished] := by
  obtain ⟨frames, ending, hparses⟩ := Framer.exists_parses s.settings.maxCommandLength inputs
  let greeting : Response := ⟨⟨.serviceReady, s.settings.welcome⟩, false⟩
  have hdialogue : Exchange.Dialogue s.settings.dispatch oracle s.state s.calls greeting frames
      (Exchange.upToClose (exchanges s.settings.dispatch oracle s.state s.calls frames)) :=
    Exchange.dialogue_upToClose rfl frames
  obtain ⟨sent, told, fault?, hcourse⟩ := converse_course ending hdialogue rfl rfl rfl hstate
  exact ⟨frames, ending, sent, told, fault?, _, hparses, hcourse, hear_of_parses oracle s hparses⟩

end Session

end FtpControl
