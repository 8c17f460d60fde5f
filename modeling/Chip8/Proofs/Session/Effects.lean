import Chip8.Proofs.KeyWait
import Chip8.Proofs.Session.Deeds
import Chip8.Proofs.Session.Ticking

/-!
# What a session does

Each function of a session does some deeds, and accounts for them
(`Session.Does`): it records them, the plain machine doing them comes to the
machine of the session, the input gives the answers among them, and the session
knows how many instructions were executed, when the timers tick next and whether
the buzzer is on.
-/

namespace Chip8

/-! ### What is drawn -/

/-- A command that writes a pixel. -/
def RenderCommand.IsPixel (c : RenderCommand) : Prop := ∃ x y lit, c = .pixel x y lit

namespace Display

variable {width height : Nat} (d : Display width height)

theorem isPixel_toggleAll (offsets : List Int) :
    ∀ c ∈ (d.toggleAll offsets).commands, c.IsPixel := by
  induction offsets generalizing d with
  | nil => exact fun c hc => absurd hc List.not_mem_nil
  | cons offset rest ih =>
    unfold toggleAll
    split
    · exact ih d
    · intro c hc
      rcases List.mem_append.1 hc with hc | hc
      · exact ⟨_, _, _, List.mem_singleton.1 hc⟩
      · exact ih _ c hc

theorem isPixel_erasure : ∀ c ∈ erasure width height, c.IsPixel := by
  intro c hc
  obtain ⟨y, _, hc⟩ := List.mem_flatMap.1 hc
  obtain ⟨x, _, rfl⟩ := List.mem_map.1 hc
  exact ⟨_, _, _, rfl⟩

end Display

namespace Machine

variable {s : Setup} {m : Machine} {c : RenderCommand}

theorem isPixel_execute {ins : Instruction} {e : Effect} (h : m.execute s ins = .ok e) :
    ∀ c ∈ e.commands, c.IsPixel := by
  obtain ⟨f, w⟩ := ins
  cases f <;> simp only [execute] at h
  case clear => cases h; exact Display.isPixel_erasure
  case ret => split at h <;> cases h; exact List.forall_mem_nil _
  case call => split at h <;> cases h; exact List.forall_mem_nil _
  case draw => cases h; exact Display.isPixel_toggleAll _ _
  all_goals
    cases h
    exact List.forall_mem_nil _

/-- A step draws pixel by pixel. -/
theorem isPixel_step (s : Setup) (m : Machine) : ∀ c ∈ (m.step s).commands, c.IsPixel := by
  unfold step
  split
  · exact List.forall_mem_nil _
  · split
    · exact List.forall_mem_nil _
    · simp only
      split
      · unfold commit
        split <;> exact isPixel_execute ‹_›
      · exact List.forall_mem_nil _

/-- A key of the keypad is held or released. -/
theorem deed_setKey (s : Setup) (m : Machine) (key : Key) (pressed : Bool) :
    m.deed s (.setKey key pressed) = { m with keypad := m.keypad.set key pressed } := by
  rw [deed, act_setKey, Keypad.key?_eq_some_iff.2 rfl, Option.elim_some]

end Machine

namespace Renderer

/-- The kind of a renderer. -/
def kind : Renderer → RendererKind
  | plain _ => .plain
  | window _ => .window
  | terminal _ => .terminal

variable {r r' : Renderer} {c : RenderCommand} {calls : List HostCall} {e : RendererError}

/-- Carrying out commands does not make another kind of renderer. -/
theorem kind_handle (h : r.handle c = .ok (r', calls)) : r'.kind = r.kind := by
  cases r with
  | plain p =>
    cases h
    rfl
  | terminal t =>
    cases h
    rfl
  | window w =>
    simp only [handle] at h
    cases hw : w.handle c <;> rw [hw] at h <;> cases h
    rfl

/-- Only windows fail, and only to write a pixel. -/
theorem of_handle_eq_error (h : r.handle c = .error e) : r.kind = .window ∧ c.IsPixel := by
  cases r with
  | plain p => cases h
  | terminal t => cases h
  | window w =>
    cases c with
    | pixel x y lit => exact ⟨rfl, x, y, lit, rfl⟩
    | resolution | refresh | title => cases h

theorem exists_handle (r : Renderer) (h : ¬c.IsPixel) :
    ∃ r' calls, r.handle c = .ok (r', calls) ∧ r'.kind = r.kind := by
  cases hr : r.handle c with
  | error e => exact absurd (of_handle_eq_error hr).2 h
  | ok told => exact ⟨told.1, told.2, rfl, kind_handle hr⟩

end Renderer

namespace Deed

/-- The keys taken over at a poll. -/
def takeover (held : Key → Bool) : List Deed :=
  (List.finRange 16).map fun key => .setKey key (held key)

/-- The buzzer falls silent if it is on. -/
def silence (on : Bool) : List Deed :=
  switches (if on then some false else none)

/-- The buzzer follows the sound timer. -/
def sync (on sounding : Bool) : List Deed :=
  switches (if sounding = on then none else some sounding)

theorem level_silence (on : Bool) : level on (silence on) = false := by
  cases on <;> rfl

theorem poll_notMem_close (quits on : Bool) : poll quits ∉ refresh :: silence on := by
  cases on <;> simp [silence, switches]

theorem level_sync (on sounding : Bool) : level on (sync on sounding) = sounding := by
  cases on <;> cases sounding <;> rfl

end Deed

namespace Session

variable {c : Course} {s s' s'' : Session} {ds ds' : List Deed} {now time : Float}

/-- The session records some deeds and accounts for them, but for those of its
    machine. -/
structure Records (s : Session) (ds : List Deed) (s' : Session) : Prop where
  deeds : s'.deeds = s.deeds ++ ds
  input : s.input.Gives ds s'.input
  timed : s'.input.timed = s.input.timed
  kind : s'.renderer.kind = s.renderer.kind
  cycles : s'.cycles = s.cycles + ds.countP Deed.returns
  ticks : s'.nextTick = tickTime s.nextTick (ds.count .tick)
  buzzing : s'.buzzing = Deed.level s.buzzing ds
  buzzer : s'.buzzer = s.buzzer.after ds
  flips : Deed.Flips s.buzzing ds

/-- The session does some deeds and accounts for all of them. -/
structure Does (c : Course) (s : Session) (ds : List Deed) (s' : Session) : Prop
    extends Records s ds s' where
  machine : s.machine.Does c.setup ds s'.machine

theorem Records.trans (h : s.Records ds s') (h' : s'.Records ds' s'') :
    s.Records (ds ++ ds') s'' where
  deeds := by rw [h'.deeds, h.deeds, List.append_assoc]
  input := h.input.append h'.input
  timed := h'.timed.trans h.timed
  kind := h'.kind.trans h.kind
  cycles := by rw [h'.cycles, h.cycles, List.countP_append, Nat.add_assoc]
  ticks := by rw [h'.ticks, h.ticks, List.count_append, tickTime_add, Nat.add_comm]
  buzzing := by rw [h'.buzzing, h.buzzing, Deed.level_append]
  buzzer := by rw [h'.buzzer, h.buzzer, Buzzer.after_append]
  flips := (Deed.flips_append _ _ _).2 ⟨h.flips, h.buzzing ▸ h'.flips⟩

theorem Records.refl (s : Session) : s.Records [] s where
  deeds := (List.append_nil _).symm
  input := Input.gives_nil _
  timed := rfl
  kind := rfl
  cycles := rfl
  ticks := rfl
  buzzing := rfl
  buzzer := rfl
  flips := trivial

theorem Does.trans (h : s.Does c ds s') (h' : s'.Does c ds' s'') : s.Does c (ds ++ ds') s'' :=
  ⟨h.toRecords.trans h'.toRecords, h.machine.append h'.machine⟩

theorem Does.refl (c : Course) (s : Session) : s.Does c [] s :=
  ⟨.refl s, rfl⟩

/-! ### The renderer -/

theorem exists_tell (s : Session) {command : RenderCommand} (h : ¬command.IsPixel) :
    ∃ (renderer : Renderer) (calls : List HostCall), s.tell command =
        ({ s with renderer := renderer }.recordAll (.told command :: calls.map .called), none) ∧
      renderer.kind = s.renderer.kind := by
  obtain ⟨renderer, calls, hhandle, hkind⟩ := s.renderer.exists_handle h
  exact ⟨renderer, calls, by simp only [tell, hhandle], hkind⟩

theorem does_title (c : Course) (s : Session) (text : String) :
    s.Does c [] (s.tell (.title text)).1 := by
  have hcommand : ¬(RenderCommand.title text).IsPixel := nofun
  obtain ⟨renderer, calls, htell, hkind⟩ := s.exists_tell hcommand
  rw [htell]
  exact { Does.refl c s with
    deeds := deeds_recordCalls { s with renderer := renderer } _ calls
    kind := hkind }

theorem does_report (c : Course) (s : Session) (frames operations : Nat) :
    s.Does c [] (s.report frames operations) :=
  does_title c s _

theorem tellAll_singleton (s : Session) (command : RenderCommand) :
    (s.tellAll [command]).1 = (s.tell command).1 := by
  cases h : s.renderer.handle command <;> simp only [tellAll, tell, h]

theorem does_refresh (c : Course) (s : Session) : s.Does c [.refresh] s.refresh := by
  have hcommand : ¬(RenderCommand.refresh s.machine.display.changed).IsPixel := nofun
  obtain ⟨renderer, calls, htell, hkind⟩ :=
    { s with machine := s.machine.deed c.setup .refresh }.exists_tell hcommand
  have hrefresh : s.refresh = _ := (tellAll_singleton _ _).trans (congrArg Prod.fst htell)
  rw [hrefresh]
  exact { Does.refl c s with
    deeds := deeds_recordCalls
      { s with machine := s.machine.deed c.setup .refresh, renderer := renderer } _ calls
    flips := Deed.flips_singleton _ rfl
    kind := hkind
    machine := Machine.does_singleton _ _ rfl }

theorem does_frame (c : Course) (s : Session) (now : Float) : s.Does c [.refresh] (s.frame now) :=
  { does_refresh c { s with nextFrame := now + frameInterval } with }

/-- Writing pixels is no deed, and leaves all but the renderer as it was. It
    fails in windows only. -/
theorem exists_of_tellAll {commands : List RenderCommand} {written : Bool}
    {problem : Option RendererError} (h : s.tellAll commands = (s', written, problem))
    (hpixel : ∀ command ∈ commands, command.IsPixel) :
    ∃ (renderer : Renderer) (events : List SessionEvent),
      s' = { s with renderer := renderer, events := events } ∧ s'.deeds = s.deeds ∧
        renderer.kind = s.renderer.kind ∧ (problem ≠ none → s.renderer.kind = .window) := by
  induction commands generalizing s written with
  | nil =>
    cases h
    exact ⟨s'.renderer, s'.events, rfl, rfl, rfl, fun h => absurd rfl h⟩
  | cons command rest ih =>
    obtain ⟨x, y, lit, rfl⟩ := hpixel command List.mem_cons_self
    cases hhandle : s.renderer.handle (.pixel x y lit) with
    | error e =>
      simp only [tellAll, tell, hhandle, Prod.mk.injEq] at h
      obtain ⟨rfl, rfl, rfl⟩ := h
      exact ⟨s.renderer, s.events, rfl, rfl, rfl, fun _ => (Renderer.of_handle_eq_error hhandle).1⟩
    | ok told =>
      obtain ⟨renderer, calls⟩ := told
      simp only [tellAll, tell, hhandle, Prod.mk.injEq] at h
      have hdeeds := deeds_recordCalls { s with renderer := renderer }
        (.told (.pixel x y lit)) calls
      have hkind := Renderer.kind_handle hhandle
      obtain ⟨last, events, hlast, hrest, hsame, hwindow⟩ := ih
        (s := { s with renderer := renderer }.recordAll
          (.told (.pixel x y lit) :: calls.map .called))
        (Prod.ext h.1 (Prod.ext rfl h.2.2))
        (fun command hc => hpixel command (List.mem_cons_of_mem _ hc))
      exact ⟨last, events, hlast, (hrest.trans hdeeds).trans (List.append_nil _),
        hsame.trans hkind, fun h => hkind.symm.trans (hwindow h)⟩

/-! ### The buzzer -/

theorem does_switch {on : Bool} (c : Course) (h : on = !s.buzzing) :
    s.Does c [.switch on] (s.switch on) :=
  { Does.refl c s with
    deeds := deeds_recordCalls
      { s with buzzer := (s.buzzer.switch on).1, buzzing := on } (.switched on) _
    buzzing := rfl
    buzzer := rfl
    flips := ⟨fun _ hnow => by cases hnow; exact h, trivial⟩
    machine := Machine.does_singleton _ _ rfl }

theorem does_syncBuzzer (c : Course) (s : Session) :
    s.Does c (Deed.sync s.buzzing s.machine.sounding) s.syncBuzzer := by
  unfold syncBuzzer Deed.sync
  split
  · exact .refl c s
  · exact does_switch c (Bool.eq_not.2 ‹_›)

theorem does_finish (c : Course) (s : Session) (exit : Exit) :
    s.Does c (.refresh :: Deed.silence s.buzzing) (s.finish exit) := by
  have hshown := does_refresh c s
  have hbuzzing : s.refresh.buzzing = s.buzzing := hshown.buzzing
  have hsilent : s.refresh.Does c (Deed.silence s.buzzing) (s.finish exit) := by
    rw [← hbuzzing, finish, Deed.silence]
    cases h : s.refresh.buzzing with
    | true =>
      have hon : false = !s.refresh.buzzing := by rw [h]; rfl
      exact { does_switch c hon with }
    | false => exact { Does.refl c s.refresh with }
  exact hshown.trans hsilent

/-! ### The input and the keys -/

theorem timed_deliver (i : Input) (a : Arrival) : (i.deliver a).timed = i.timed := by
  cases i <;> cases a <;> rfl

theorem timed_foldl_deliver (arrivals : List Arrival) (i : Input) :
    (arrivals.foldl Input.deliver i).timed = i.timed := by
  induction arrivals generalizing i with
  | nil => rfl
  | cons a arrivals ih => rw [List.foldl_cons, ih, timed_deliver]

theorem timed_poll (i : Input) (time : Float) : (i.poll time).1.timed = i.timed := by
  cases i <;> rfl

theorem does_arrive (c : Course) (s : Session) (arrivals : List Arrival) :
    s.Does c [] { s with input := arrivals.foldl Input.deliver s.input } :=
  { Does.refl c s with
    input := ⟨arrivals, rfl⟩
    timed := timed_foldl_deliver arrivals s.input }

theorem does_poll {input : Input} {quits : Bool} (c : Course)
    (h : s.input.poll time = (input, quits)) :
    s.Does c [.poll quits] ({ s with input := input }.record (.polled quits)) :=
  { Does.refl c s with
    deeds := deeds_record { s with input := input } (.polled quits)
    flips := Deed.flips_singleton _ rfl
    machine := Machine.does_singleton _ _ rfl
    input := ⟨[], time, input, h, Input.gives_nil _⟩
    timed := by
      have := timed_poll s.input time
      rwa [h] at this }

theorem does_log (c : Course) (s : Session) (line : LogLine) :
    s.Does c [] (s.record (.logged line)) :=
  { Does.refl c s with deeds := deeds_record s (.logged line) }

theorem does_takeKey (c : Course) (s : Session) (time : Float) (key : Key) :
    s.Does c [.setKey key (s.input.isHeld time key)] (s.takeKey time key) := by
  generalize hpressed : s.input.isHeld time key = pressed
  have hmachine := Machine.does_singleton c.setup s.machine (d := .setKey key pressed) rfl
  rw [Machine.deed_setKey] at hmachine
  subst hpressed
  exact { Does.refl c s with
    deeds := deeds_record _ (.keySet key _)
    input := ⟨⟨time, rfl⟩, Input.gives_nil _⟩
    flips := Deed.flips_singleton _ rfl
    machine := hmachine }

theorem does_takeKeys (c : Course) (s : Session) (time : Float) :
    s.Does c (Deed.takeover fun key => s.input.isHeld time key) (s.takeKeys time) := by
  suffices h : ∀ (keys : List Key) (s : Session),
      s.Does c (keys.map fun key => .setKey key (s.input.isHeld time key))
        (keys.foldl (fun s key => s.takeKey time key) s) from h _ s
  intro keys
  induction keys with
  | nil => exact fun s => .refl c s
  | cons key keys ih =>
    -- Taking a key over leaves the input as it was polled.
    exact fun s => (does_takeKey c s time key).trans (ih (s.takeKey time key))

/-! ### Ticks and instructions -/

theorem does_tick (c : Course) (s : Session) : s.Does c [.tick] s.tick :=
  { Does.refl c s with
    deeds := deeds_record _ .ticked
    flips := Deed.flips_singleton _ rfl
    machine := Machine.does_singleton _ _ rfl
    ticks := rfl }

/-- It makes no difference whether an instruction is counted before the buzzer
    follows it or afterwards. -/
theorem settle_eq (s : Session) :
    s.settle =
      { s with cycles := s.cycles + 1, operations := s.operations + 1 }.syncBuzzer := by
  unfold settle syncBuzzer
  split <;> rfl

theorem deeds_take (s : Session) (result : StepResult) : (s.take result).deeds = s.deeds := by
  refine (deeds_recordAll { s with machine := result.machine } _).trans ?_
  rw [filterMap_unseen fun _ => rfl]
  exact List.append_nil _

/-- An instruction that is executed to its end. -/
theorem does_step {told : Session} {i : Instruction} {written : Bool}
    (result : (s.machine.step c.setup).result = .ok i)
    (drawn : (s.take (s.machine.step c.setup)).tellAll (s.machine.step c.setup).commands =
      (told, written, none)) :
    s.Does c (.step (.ok i) :: Deed.sync s.buzzing (s.machine.step c.setup).machine.sounding)
      (told.record (.stepped i)).settle := by
  obtain ⟨renderer, events, htold, hdeeds, hkind, _⟩ :=
    exists_of_tellAll drawn (Machine.isPixel_step c.setup s.machine)
  rw [deeds_take] at hdeeds
  have hstepped : (told.record (.stepped i)).deeds = s.deeds ++ [.step (.ok i)] := by
    rw [deeds_record, hdeeds]
    rfl
  subst htold
  rw [settle_eq]
  have hcounted : s.Does c [.step (.ok i)]
      { s with
        machine := (s.machine.step c.setup).machine
        renderer := renderer
        cycles := s.cycles + 1
        operations := s.operations + 1
        events := .stepped i :: events } :=
    { Does.refl c s with
      deeds := hstepped
      flips := Deed.flips_singleton _ rfl
      kind := hkind
      machine := ⟨fun r hr => by cases hr; exact result, rfl⟩
      cycles := rfl }
  exact hcounted.trans (does_syncBuzzer c _)

/-- A step that fails leaves its fault. -/
theorem does_fail {f : Fault} (result : (s.machine.step c.setup).result = .error f) :
    s.Does c [.step (.error f)] ((s.take (s.machine.step c.setup)).record (.halted f)) :=
  { Does.refl c s with
    deeds := (deeds_record _ (.halted f)).trans (congrArg (· ++ _) (deeds_take s _))
    flips := Deed.flips_singleton _ rfl
    machine := ⟨fun r hr => by cases hr; exact result, rfl⟩ }

/-- A step whose pixels cannot be written. -/
theorem records_undraw {told : Session} {written : Bool} {e : RendererError}
    (drawn : (s.take (s.machine.step c.setup)).tellAll (s.machine.step c.setup).commands =
      (told, written, some e))
    (display : Display Display.standardWidth Display.standardHeight) :
    s.Records [] { told with machine := { told.machine with display := display } } ∧
      s.renderer.kind = .window := by
  obtain ⟨renderer, events, htold, hdeeds, hkind, hwindow⟩ :=
    exists_of_tellAll drawn (Machine.isPixel_step c.setup s.machine)
  rw [deeds_take] at hdeeds
  subst htold
  exact ⟨{ Records.refl s with
    deeds := hdeeds.trans (List.append_nil _).symm
    kind := hkind }, hwindow nofun⟩

end Session

end Chip8
