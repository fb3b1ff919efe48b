import Mathlib
import FtpControl.Proofs.Dialogue

/-!
This module contains what a session does when one of its replies does not get through: it stops
there, with what it has done so far and nothing else. As long as everything gets through, faults of
other calls make no difference.
-/

namespace FtpControl

namespace Session

variable {oracle : Action.Oracle} {s : Session}

structure BreaksOff (s : Session) (response : Response) (xs : List (Exchange Frame)) (j : Nat)
    (fault : Operation × String) (step : Step) : Prop where
  state_eq : step.1.state = Exchange.last (·.after) s.state (xs.take j)
  phase_eq : step.1.phase = .ended (.transport (.io fault.2))
  visible_eq : visible step.2
    = (((Exchange.replies response xs).take j).zip (xs.take j)).flatMap
          (fun (reply, x) => Exchange.delivered reply ++ x.work)
        ++ .failed fault.1 fault.2 :: s.farewell (.ended (.transport (.io fault.2)))

theorem breaksOff_at_once (ending : Reason) (response : Response) (frames : List Frame)
    (xs : List (Exchange Frame)) (hroom : s.control.Roomy) {fault : Operation × String}
    (hfault : s.control.faultIn (s.control.callsFor s.out response.reply.wire) = some fault)
    : s.BreaksOff response xs 0 fault (s.converse oracle ending response frames) := by
  have hsend := hroom.send s.out response.reply.wire
  rw [hfault] at hsend
  rw [converse_of_fault ending response frames hsend.fault?_eq]
  constructor
  . rfl
  . rfl
  . rw [Step.after, visible_append, hsend.visible_eq, visible_finish]
    rfl

theorem breaksOff_at_last (ending : Reason) (response : Response) (frames : List Frame)
    {xs : List (Exchange Frame)} (hroom : s.control.Roomy) {j : Nat} {fault : Operation × String}
    (hlast : Exchange.replies response xs = [response.reply])
    (hfault : (s.control.schedule s.out ((Exchange.replies response xs).map (·.wire)))[j]?.bind
      s.control.faultIn = some fault)
    : s.BreaksOff response xs j fault (s.converse oracle ending response frames) := by
  rw [hlast] at hfault
  cases j with
  | zero => exact breaksOff_at_once ending response frames xs hroom hfault
  | succ j => contradiction

theorem converse_breaksOff (ending : Reason) {cfg : SessionSettings} {st : SessionState}
    {past : List Call} {response : Response} {frames : List Frame} {xs : List (Exchange Frame)}
    (h : Exchange.Dialogue cfg.dispatch oracle st past response frames xs)
    (hsettings : s.settings = cfg) (hstate : s.state = st) (hcalls : s.calls = past)
    (hroom : s.control.Roomy) (hout : s.out.unflushed = []) {j : Nat} {fault : Operation × String}
    {schedule : List (List (Operation × Nat))}
    (hschedule : schedule
      = s.control.schedule s.out ((Exchange.replies response xs).map (·.wire)))
    (hclear : ∀ calls ∈ schedule.take j, s.control.faultIn calls = none)
    (hfault : schedule[j]?.bind s.control.faultIn = some fault)
    : s.BreaksOff response xs j fault (s.converse oracle ending response frames) := by
  induction h generalizing s j schedule with
  | closed hcloses =>
    subst hschedule
    exact breaksOff_at_last ending _ _ hroom rfl hfault
  | idle hopen =>
    subst hschedule
    exact breaksOff_at_last ending _ _ hroom rfl hfault
  | stuck hopen hnone =>
    subst hschedule
    refine breaksOff_at_last ending _ _ hroom ?_ hfault
    rw [Exchange.replies, List.filterMap_cons_none hnone]
    rfl
  | @answered st past response next frame frames xs hopen hnext hrest ih =>
    rw [Exchange.replies_cons response hnext] at hschedule
    subst hsettings hstate hcalls hschedule
    -- Either this reply meets the fault, or it goes out and there is one reply less in front of it.
    cases j with
    | zero => exact breaksOff_at_once ending response _ _ hroom hfault
    | succ j =>
      obtain ⟨hsend, hbehind, hsent⟩ := sent_of_roomy hroom hout response.reply (hclear _ (.head _))
      change (s.exchange oracle frame).response? = some next at hnext
      change s.BreaksOff response (s.exchange oracle frame :: xs) (j + 1) fault _
      have hout' : (s.behind oracle response.reply frame).out
          = s.control.behind s.out response.reply.wire := hbehind
      have hfinal := ih (s := s.behind oracle response.reply frame) rfl rfl rfl hroom
        (by rw [hout']; rfl) (by rw [hout']; rfl) (fun calls hmem => hclear calls (.tail _ hmem))
        hfault
      rw [converse_of_answered ending hsend hopen frame frames hnext]
      constructor
      . rw [List.take_succ_cons, Exchange.last_cons]
        exact hfinal.state_eq
      . exact hfinal.phase_eq
      . rw [Step.after, visible_append, visible_append, hsent, visible_work, hfinal.visible_eq,
          Exchange.replies_cons response hnext, List.take_succ_cons, List.take_succ_cons,
          List.zip_cons_cons, List.flatMap_cons, farewell_behind]
        simp

def mended (s : Session) : Session :=
  { s with control := s.control.mended }

theorem sent_mended (hroom : s.control.Roomy) (hout : s.out.unflushed = []) (reply : Reply)
    (hclear : s.control.faultIn (s.control.callsFor s.out reply.wire) = none)
    : (s.mended.control.send s.mended.out reply.wire).fault? = none
        ∧
      s.mended.outAfter reply = s.outAfter reply
        ∧
      s.mended.sent reply = s.sent reply := by
  obtain ⟨hfault, _⟩ := sent_of_roomy hroom hout reply hclear
  have hsend := hroom.send_mended s.out reply.wire hclear
  refine ⟨?_, ?_, ?_⟩
  . exact (congrArg (·.fault?) hsend).trans hfault
  . exact congrArg (·.out) hsend
  . exact congrArg (·.events ++ [.noted (.reply reply.encode)]) hsend

theorem converse_mended (ending : Reason) {cfg : SessionSettings} {st : SessionState}
    {past : List Call} {response : Response} {frames : List Frame} {xs : List (Exchange Frame)}
    (h : Exchange.Dialogue cfg.dispatch oracle st past response frames xs)
    (hsettings : s.settings = cfg) (hstate : s.state = st) (hcalls : s.calls = past)
    (hroom : s.control.Roomy) (hout : s.out.unflushed = [])
    (hclear : ∀ calls ∈ s.control.schedule s.out ((Exchange.replies response xs).map (·.wire)),
      s.control.faultIn calls = none)
    : s.converse oracle ending response frames
        =
      ({ (s.mended.converse oracle ending response frames).1 with control := s.control },
        (s.mended.converse oracle ending response frames).2) := by
  induction h generalizing s with
  | @closed st past response frames hcloses =>
    obtain ⟨hsend, _⟩ := sent_of_roomy hroom hout response.reply (hclear _ (.head _))
    obtain ⟨hmended, hafter, hsent⟩ := sent_mended hroom hout response.reply (hclear _ (.head _))
    rw [converse_of_closes ending hsend hcloses, converse_of_closes ending hmended hcloses, hafter,
      hsent]
    rfl
  | @idle st past response hopen =>
    obtain ⟨hsend, _⟩ := sent_of_roomy hroom hout response.reply (hclear _ (.head _))
    obtain ⟨hmended, hafter, hsent⟩ := sent_mended hroom hout response.reply (hclear _ (.head _))
    rw [converse_of_open ending hsend hopen, converse_of_open ending hmended hopen, awaiting,
      awaiting, hafter, hsent]
    rfl
  | @stuck st past response frame frames hopen hnone =>
    subst hsettings hstate hcalls
    obtain ⟨hsend, _⟩ := sent_of_roomy hroom hout response.reply (hclear _ (.head _))
    obtain ⟨hmended, hafter, hsent⟩ := sent_mended hroom hout response.reply (hclear _ (.head _))
    rw [converse_of_stuck ending hsend hopen frame frames hnone,
      converse_of_stuck ending hmended hopen frame frames hnone, hafter, hsent]
    rfl
  | @answered st past response next frame frames xs hopen hnext hrest ih =>
    subst hsettings hstate hcalls
    obtain ⟨hsend, hbehind, _⟩ := sent_of_roomy hroom hout response.reply (hclear _ (.head _))
    obtain ⟨hmended, hafter, hsent⟩ := sent_mended hroom hout response.reply (hclear _ (.head _))
    rw [Exchange.replies_cons response hnext] at hclear
    have hout' : (s.behind oracle response.reply frame).out
        = s.control.behind s.out response.reply.wire := hbehind
    have hfinal := ih (s := s.behind oracle response.reply frame) rfl rfl rfl hroom
      (by rw [hout']; rfl) (by rw [hout']; exact fun calls hmem => hclear calls (.tail _ hmem))
    have hnext' : s.mended.behind oracle response.reply frame
        = (s.behind oracle response.reply frame).mended := by
      unfold behind awaiting
      rw [hafter]
      rfl
    rw [converse_of_answered ending hsend hopen frame frames hnext,
      converse_of_answered ending hmended hopen frame frames hnext, hsent, hnext', hfinal]
    rfl

theorem filterMap_work {α : Type} (f : Event → Option α) (hnoted : ∀ note, f (.noted note) = none)
    (hcalled : ∀ call, f (.called call) = none)
    {answer : Frame → SessionState → Action (SessionState × Response)} {x : Exchange Frame}
    (hx : ∃ st past, x = FtpControl.exchange answer oracle st past x.request)
    : x.work.filterMap f = (f (.received x.request)).toList := by
  have hevents : x.outcome.events.filterMap f = [] := by
    obtain ⟨st, past, hx⟩ := hx
    rw [hx]
    exact Action.filterMap_run f hnoted hcalled oracle past _
  rw [Exchange.work, List.filterMap_cons, hevents]
  cases f (.received x.request) <;> rfl

theorem BreaksOff.filterMap_eq {α : Type} {response : Response} {xs : List (Exchange Frame)}
    {j : Nat} {fault : Operation × String} {step : Step} (h : s.BreaksOff response xs j fault step)
    (f : Event → Option α) (hwrote : ∀ bytes, f (.wrote bytes) = none)
    (hfailed : ∀ operation reason, f (.failed operation reason) = none)
    (hnoted : ∀ note, f (.noted note) = none)
    (hshutDown : ∀ channel clean, f (.shutDown channel clean) = none)
    : step.2.filterMap f
        =
      (((Exchange.replies response xs).take j).zip (xs.take j)).flatMap
        fun (reply, x) => (f (.flushed reply.wire)).toList ++ x.work.filterMap f := by
  rw [← filterMap_visible f hwrote, h.visible_eq, List.filterMap_append,
    List.filterMap_cons_none (hfailed _ _), filterMap_farewell f hnoted hshutDown, List.append_nil,
    List.filterMap_flatMap]
  apply List.flatMap_congr
  rintro ⟨reply, x⟩ _
  dsimp only
  rw [List.filterMap_append, Exchange.filterMap_delivered f hnoted]

theorem flatMap_zip_fst {α β γ : Type} {l : List α} {m : List β} (h : l.length ≤ m.length)
    (g : α → List γ) : ((l.zip m).flatMap fun (a, _) => g a) = l.flatMap g := by
  conv => rhs; rw [← List.map_fst_zip h]
  rw [List.flatMap_map]

theorem flatMap_zip_snd {α β γ : Type} {l : List α} {m : List β} (h : m.length ≤ l.length)
    (g : β → List γ) : ((l.zip m).flatMap fun (_, b) => g b) = m.flatMap g := by
  conv => rhs; rw [← List.map_snd_zip h]
  rw [List.flatMap_map]

section

variable {response : Response} {xs : List (Exchange Frame)} {j : Nat} {fault : Operation × String}
  {step : Step} (h : s.BreaksOff response xs j fault step)
  (hj : j < (Exchange.replies response xs).length)

include h hj

theorem BreaksOff.filterMap_call?
    : step.2.filterMap Event.call? = (xs.take j).flatMap (·.calls) := by
  have hlength := Exchange.length_replies_le response xs
  have hzip := flatMap_zip_snd (l := (Exchange.replies response xs).take j)
    (m := xs.take j) (by rw [List.length_take, List.length_take]; omega) Exchange.calls
  rw [h.filterMap_eq Event.call? (fun _ => rfl) (fun _ _ => rfl) (fun _ => rfl) (fun _ _ => rfl)]
  exact hzip

variable (hxs : ∀ x ∈ xs,
  ∃ st past, x = FtpControl.exchange s.settings.dispatch oracle st past x.request)

include hxs

theorem BreaksOff.filterMap_flushed?
    : step.2.filterMap Event.flushed?
        =
      ((Exchange.replies response xs).take j).map (·.wire) := by
  have hlength := Exchange.length_replies_le response xs
  have hzip := flatMap_zip_fst (l := (Exchange.replies response xs).take j)
    (m := xs.take j) (by rw [List.length_take, List.length_take]; omega)
    fun reply => [reply.wire]
  rw [h.filterMap_eq Event.flushed? (fun _ => rfl) (fun _ _ => rfl) (fun _ => rfl)
    (fun _ _ => rfl), List.map_eq_flatMap, ← hzip]
  apply List.flatMap_congr
  rintro ⟨reply, x⟩ hmem
  have hx := hxs x (List.mem_of_mem_take (List.of_mem_zip hmem).2)
  dsimp only
  rw [filterMap_work Event.flushed? (fun _ => rfl) (fun _ => rfl) hx]
  rfl

theorem BreaksOff.filterMap_frame?
    : step.2.filterMap Event.frame? = (xs.take j).map (·.request) := by
  have hlength := Exchange.length_replies_le response xs
  have hzip := flatMap_zip_snd (l := (Exchange.replies response xs).take j)
    (m := xs.take j) (by rw [List.length_take, List.length_take]; omega)
    fun x => [x.request]
  rw [h.filterMap_eq Event.frame? (fun _ => rfl) (fun _ _ => rfl) (fun _ => rfl)
    (fun _ _ => rfl), List.map_eq_flatMap, ← hzip]
  apply List.flatMap_congr
  rintro ⟨reply, x⟩ hmem
  have hx := hxs x (List.mem_of_mem_take (List.of_mem_zip hmem).2)
  dsimp only
  rw [filterMap_work Event.frame? (fun _ => rfl) (fun _ => rfl) hx]
  rfl

end

/--
A session whose writes and flushes may fail, against the same session without these faults. With `j`
for the number of the first reply that meets a fault, the replies before it go out and the requests
up to `j` are worked on, each with the state that it left, and that is all.
-/
theorem serve_stops_at_fault (cfg : SessionSettings) (control : Channel) (data : Option Channel)
    (oracle : Action.Oracle) (inputs : List Input) (hroom : ∀ n, control.room n ≠ some 0)
    : let s : Session := { settings := cfg, control, data }
      let clean := s.mended.serve oracle inputs
      let served := s.serve oracle inputs
      let requests := clean.2.filterMap Event.frame?
      let results := exchanges cfg.dispatch oracle .initial [] requests
      let replies := ⟨.serviceReady, cfg.welcome⟩ :: (results.filterMap (·.response?)).map (·.reply)
      let schedule := control.schedule {} (replies.map (·.wire))
      clean.2.filterMap Event.flushed? = replies.map (·.wire)
        ∧
      ((∀ calls ∈ schedule, control.faultIn calls = none)
        → served = ({ clean.1 with control }, clean.2))
        ∧
      ∀ j operation reason,
        (∀ calls ∈ schedule.take j, control.faultIn calls = none)
          →
        schedule[j]?.bind control.faultIn = some (operation, reason)
          →
        visible served.2
            =
          .noted .connectionEstablished ::
            ((replies.take j).zip (results.take j)).flatMap
                (fun (reply, x) => Exchange.delivered reply ++ x.work)
              ++ .failed operation reason :: s.farewell (.ended (.transport (.io reason)))
          ∧
        served.2.filterMap Event.flushed? = (replies.take j).map (·.wire)
          ∧
        served.2.filterMap Event.frame? = requests.take j
          ∧
        served.2.filterMap Event.call? = (results.take j).flatMap (·.calls)
          ∧
        ∀ log : ConnectionLog,
          served.1.termination? log
            =
          some ⟨log.session, log.peer, .transport (.io reason),
            Exchange.last (·.after) .initial (results.take j)⟩ := by
  intro s clean served requests results replies schedule
  obtain ⟨frames, ending, hparses⟩ := Framer.exists_parses cfg.maxCommandLength inputs
  let greeting : Response := ⟨⟨.serviceReady, cfg.welcome⟩, false⟩
  let xs := Exchange.upToClose (exchanges cfg.dispatch oracle .initial [] frames)
  have hdialogue : Exchange.Dialogue cfg.dispatch oracle .initial [] greeting frames xs :=
    Exchange.dialogue_upToClose rfl frames
  have hxs : ∀ x ∈ xs, ∃ st past, x = FtpControl.exchange cfg.dispatch oracle st past x.request :=
    fun x hx => exists_exchange_of_mem _ _ _ _ _ x (List.mem_of_mem_take hx)
  have hserved : served = (s.converse oracle ending greeting frames).after
      [.noted .connectionEstablished] := hear_of_parses oracle s hparses
  have hclean : clean = (s.mended.converse oracle ending greeting frames).after
      [.noted .connectionEstablished] := hear_of_parses oracle s.mended hparses
  have hconcludes := converse_concludes (s := s.mended) ending hdialogue rfl rfl rfl
    (Channel.Roomy.mended hroom) rfl (Channel.faultIn_schedule (fun _ => rfl) (fun _ => rfl) _ _)
  have hrequests : requests = xs.map (·.request) := by
    apply (congrArg (·.2.filterMap Event.frame?) hclean).trans
    exact hconcludes.filterMap_frame? hxs
  have hresults : results = xs := by
    rw [show results = exchanges cfg.dispatch oracle .initial [] requests from rfl, hrequests]
    exact hdialogue.exchanges_eq
  have hreplies : replies = Exchange.replies greeting xs := by
    rw [← hresults]
    rfl
  have hschedule : schedule = control.schedule {} ((Exchange.replies greeting xs).map (·.wire)) :=
    congrArg (fun replies : List Reply => control.schedule {} (replies.map (·.wire))) hreplies
  refine ⟨?_, ?_, ?_⟩
  . rw [hreplies]
    apply (congrArg (·.2.filterMap Event.flushed?) hclean).trans
    exact hconcludes.filterMap_flushed? hxs
  . intro hclear
    rw [hschedule] at hclear
    have hmended := converse_mended (s := s) ending hdialogue rfl rfl rfl hroom rfl hclear
    rw [hserved, hclean, hmended]
    rfl
  . intro j operation reason hclear hfault
    have hbreaks := converse_breaksOff (s := s) ending hdialogue rfl rfl rfl hroom rfl hschedule
      hclear hfault
    have hj : j < (Exchange.replies greeting xs).length := by
      rw [← hreplies, ← List.length_map, ← control.length_schedule {}]
      obtain ⟨calls, hcalls, _⟩ := Option.bind_eq_some_iff.1 hfault
      exact (List.getElem?_eq_some_iff.1 hcalls).1
    rw [hserved, hreplies, hresults, hrequests, ← List.map_take]
    refine ⟨?_, ?_, ?_, ?_, ?_⟩
    . rw [Step.after, List.singleton_append, visible_noted_cons, hbreaks.visible_eq]
      rfl
    . exact hbreaks.filterMap_flushed? hj hxs
    . exact hbreaks.filterMap_frame? hj hxs
    . exact hbreaks.filterMap_call? hj
    . intro log
      rw [Step.fst_after, termination?, hbreaks.phase_eq, hbreaks.state_eq]

set_option maxRecDepth 10000 in
theorem serve_stops_at_fault_of_closing
    : let bye : Handler := { conduct := fun _ st => .done (st, ⟨⟨.closingControl, "bye"⟩, true⟩) }
      let cfg : SessionSettings :=
        { welcome := "hi", maxCommandLength := 16, registry := Registry.empty.setFallback bye }
      let control : Channel :=
        { name := "control"
          fault := fun operation n =>
            if operation = .write ∧ n = 4 then some "broken pipe" else none
          room := fun _ => some 3 }
      let s : Session := { settings := cfg, control }
      let served := s.serve .later ([120, 10, 121, 10].map .byte)
      (∀ n, control.room n ≠ some 0)
        ∧
      served.2.filterMap Event.flushed? = [Text.Utf8.encodeString "220 hi\r\n"]
        ∧
      served.2.filterMap Event.frame? = [.line [120, 10]]
        ∧
      ∀ log : ConnectionLog, served.1.termination? log
        = some ⟨log.session, log.peer, .transport (.io "broken pipe"), .initial⟩ := by
  intro bye cfg control s served
  have hroom : ∀ n, control.room n ≠ some 0 := by simp [control]
  have hstops := serve_stops_at_fault cfg control none .later ([120, 10, 121, 10].map .byte) hroom
  have hrequests : (s.mended.serve .later ([120, 10, 121, 10].map .byte)).2.filterMap Event.frame?
      = [.line [120, 10]] := by
    dsimp only [s, cfg, control, bye]
    cbv
  have hbreaks := hstops.2.2 1 .write "broken pipe"
  rw [hrequests] at hbreaks
  let replies : List Reply := [⟨.serviceReady, "hi"⟩, ⟨.closingControl, "bye"⟩]
  have hreplies : (⟨.serviceReady, cfg.welcome⟩ :: ((exchanges cfg.dispatch .later .initial []
      [.line [120, 10]]).filterMap (·.response?)).map (·.reply) : List Reply) = replies := by
    dsimp only [cfg, bye, replies]
    cbv
  rw [hreplies] at hbreaks
  have hschedule : control.schedule {} (replies.map (·.wire))
      = [[(.write, 0), (.write, 1), (.write, 2), (.flush, 0)],
        [(.write, 3), (.write, 4), (.write, 5), (.flush, 1)]] := by
    dsimp only [control, replies]
    cbv
  rw [hschedule] at hbreaks
  have hstate : Exchange.last (·.after) .initial ((exchanges cfg.dispatch .later .initial []
      [.line [120, 10]]).take 1) = .initial := by
    dsimp only [cfg, bye]
    cbv
  rw [hstate] at hbreaks
  obtain ⟨_, hflushed, hframes, _, htermination⟩ := hbreaks (by decide) (by decide)
  refine ⟨hroom, ?_, hframes, htermination⟩
  rw [hflushed]
  dsimp only [replies]
  cbv

end Session

end FtpControl
