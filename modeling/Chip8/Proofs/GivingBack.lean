import Chip8.Proofs.Painting
import Chip8.Proofs.Session.Handovers

/-!
# Giving the host back

Starting up takes a window or a terminal and then a mixer from the host, and
whatever ends the session releases them. What fails between these two is another
matter: a refused keymap closes the renderer again, but a window that is opened
and then not made, or not painted when the machine is switched on, stays open
(`Strands`), and the mixer stays taken with it.

* `Renderer.starts`, `connects`: what taking the host over comes to;
* `handovers_execute`: once the machine is switched on, everything is released;
* `given_back_iff_not_strands`: everything is released unless a window is left
  open.
-/

namespace Chip8

/-! ### Making a renderer -/

namespace Renderer

theorem exists_of_kind {k : Renderer} (h : k.kind = .window) : ∃ w, k = .window w := by
  cases k with
  | window w => exact ⟨w, rfl⟩
  | plain | terminal => cases h

theorem handovers_closeCalls (k : Renderer) (r : Resource) :
    handovers r k.closeCalls = share k.kind.resource? r .released := by
  cases k <;> cases r <;> rfl

variable {scale palette : Value}

namespace Window

theorem halved?_eq_none_iff {v : Value} : halved? v = none ↔ v.number? = none := by
  unfold halved?
  split <;> simp only [*, reduceCtorEq]

/-- What a window is opened with is of no use to it. -/
inductive Unusable (scale palette : Value) : Prop
  /-- The scale is not a number. -/
  | scale (given : scale ≠ .null) (notANumber : scale.number? = none)
  /-- The palette is refused. -/
  | palette {e : RendererError} (refused : readPalette palette = .error e)

/-- How a window is opened. -/
inductive Opens (scale palette : Value) : Except RendererError Window × List HostCall → Prop
  | failed {e : RendererError} {calls : List HostCall} (unusable : Unusable scale palette)
      (taken : ∀ r, handovers r calls = share (some .window) r .taken) :
      Opens scale palette (.error e, calls)
  | opened {w : Window} {calls : List HostCall} (usable : ¬Unusable scale palette)
      (read : readPalette palette = .ok w.palette)
      (taken : ∀ r, handovers r calls = share (some .window) r .taken) :
      Opens scale palette (.ok w, calls)

theorem not_unusable {p : Palette} (hscale : scale = .null ∨ scale.number? ≠ none)
    (hread : readPalette palette = .ok p) : ¬Unusable scale palette := by
  rintro (⟨given, notANumber⟩ | ⟨refused⟩)
  · rcases hscale with hnull | hnumber
    · exact given hnull
    · exact hnumber notANumber
  · rw [hread] at refused
    cases refused

theorem opens (scale palette : Value) : Opens scale palette (start scale palette) := by
  unfold start
  split
  · -- The window has its standard scale.
    split
    · exact .failed (.palette ‹_›) fun r => by cases r <;> rfl
    · exact .opened (not_unusable (.inl rfl) ‹_›) ‹_› fun r => by cases r <;> rfl
  · rename_i hgiven
    simp only
    split
    · rename_i hhalf
      exact .failed (.scale hgiven (halved?_eq_none_iff.1 hhalf)) fun r => by cases r <;> rfl
    · rename_i half hhalf
      have hnumber : scale.number? ≠ none := fun hnone => by
        rw [halved?_eq_none_iff.2 hnone] at hhalf
        cases hhalf
      split
      · exact .failed (.palette ‹_›) fun r => by cases r <;> rfl
      · exact .opened (not_unusable (.inr hnumber) ‹_›) ‹_› fun r => by cases r <;> rfl

end Window

/-- How a renderer is made. -/
inductive Starts (kind : RendererKind) (o : Options) :
    Except RendererError Renderer × List HostCall → Prop
  /-- A window is opened and not made. -/
  | failed {e : RendererError} {calls : List HostCall} (window : kind = .window)
      (unusable : Window.Unusable o.scale o.palette)
      (taken : ∀ r, handovers r calls = share (some .window) r .taken) :
      Starts kind o (.error e, calls)
  /-- A terminal is not even taken. -/
  | refused {e : RendererError} (terminal : kind = .terminal) : Starts kind o (.error e, [])
  | started {k : Renderer} {calls : List HostCall} (made : k.kind = kind)
      (window : ∀ w, k = .window w →
        ¬Window.Unusable o.scale o.palette ∧ Window.readPalette o.palette = .ok w.palette)
      (taken : ∀ r, handovers r calls = share k.kind.resource? r .taken) :
      Starts kind o (.ok k, calls)

theorem starts (kind : RendererKind) (o : Options) : Starts kind o (start kind o) := by
  cases kind with
  | plain => exact .started rfl nofun fun r => by cases r <;> rfl
  | terminal =>
    simp only [start, Terminal.start]
    split
    · exact .refused rfl
    · exact .started rfl nofun fun r => by cases r <;> rfl
  | window =>
    have hopens := Window.opens o.scale o.palette
    simp only [start]
    generalize Window.start o.scale o.palette = opened at hopens ⊢
    cases hopens with
    | failed unusable taken => exact .failed rfl unusable taken
    | opened usable read taken =>
      exact .started rfl (fun w e => by cases e; exact ⟨usable, read⟩) taken

end Renderer

namespace Startup

variable {w : Surroundings} {o : Options} {p : Plan} {s after : Session} {r : Resource}
  {random : Nat → Int} {clock : Clock} {e : StartFailure} {calls : List HostCall}

/-! ### Taking the host over -/

theorem share_given_back (own : Option Resource) (r : Resource) :
    share own r .taken ++ share own r .released = [] ∨
      share own r .taken ++ share own r .released = [.taken, .released] := by
  unfold share
  split
  · exact .inr rfl
  · exact .inl rfl

/-- No renderer takes what a buzzer takes. -/
theorem shares_given_back (renderer : RendererKind) (buzzer : BuzzerKind) (r : Resource) :
    let all := share renderer.resource? r .taken ++ share buzzer.resource? r .taken ++
      (share buzzer.resource? r .released ++ share renderer.resource? r .released)
    all = [] ∨ all = [.taken, .released] := by
  cases renderer <;> cases buzzer <;> cases r <;> decide

/-- The host is of no use to a window. -/
abbrev Unusable (o : Options) : Prop :=
  Renderer.Window.Unusable (o.value "scale") (o.value "pygame_palette")

/-- A session has taken the host over. -/
structure Connected (o : Options) (p : Plan) (s : Session) : Prop where
  keymap : ∃ input, startInput p.plugins.input o = .ok input
  kind : s.renderer.kind = p.plugins.renderer
  window : ∀ w, s.renderer = .window w →
    ¬Unusable o ∧ Renderer.Window.readPalette (o.value "pygame_palette") = .ok w.palette
  account : ∀ r, s.account r =
    ⟨share p.plugins.renderer.resource? r .taken ++ share p.plugins.buzzer.resource? r .taken,
      share p.plugins.buzzer.resource? r .released ++
        share p.plugins.renderer.resource? r .released⟩

/-- How the host is taken over. -/
inductive Connects (o : Options) (p : Plan) : Attempt → Prop
  /-- A window is opened and not made, which leaves it open. -/
  | stranded {e : StartFailure} {calls : List HostCall} (window : p.plugins.renderer = .window)
      (unusable : Unusable o) (taken : ∀ r, handovers r calls = share (some .window) r .taken) :
      Connects o p (.error (e, calls))
  /-- A terminal or the keymap is refused. -/
  | refused {e : StartFailure} {calls : List HostCall}
      (window : p.plugins.renderer = .window →
        ¬Unusable o ∧ ∃ e, startInput p.plugins.input o = .error e)
      (released : ∀ r, GivenBack r calls) : Connects o p (.error (e, calls))
  | connected {s : Session} (connected : Connected o p s) : Connects o p (.ok s)

theorem connects (w : Surroundings) (o : Options) (p : Plan) : Connects o p (connect w o p) := by
  have hstarts := Renderer.starts p.plugins.renderer
    ⟨o.value "scale", o.value "pygame_palette", o.valueOr "curses_cursor_mode" (.number (.whole 0)),
      w.terminal⟩
  simp only [connect]
  generalize Renderer.start p.plugins.renderer _ = started at hstarts ⊢
  cases hstarts with
  | failed window unusable taken => exact .stranded window unusable taken
  | refused terminal => exact .refused (fun h => nomatch terminal.symm.trans h) fun r => .inl rfl
  | started made window taken =>
    rename_i k calls
    simp only
    split
    · -- A refused keymap closes the renderer.
      refine .refused (fun h => ?_) fun r => ?_
      · cases k with
        | window wd => exact ⟨(window wd rfl).1, _, ‹_›⟩
        | plain | terminal => exact nomatch made.trans h
      · rw [GivenBack, handovers_append, taken, Renderer.handovers_closeCalls]
        exact share_given_back _ r
    · obtain ⟨more, hbuzzer, hmore⟩ := Buzzer.exists_start p.plugins.buzzer
      rw [hbuzzer]
      refine .connected ⟨⟨_, ‹_›⟩, made, window, fun r => ?_⟩
      rw [Session.account_start, handovers_append, taken, hmore, handovers_append,
        Buzzer.handovers_closeCalls, Renderer.handovers_closeCalls, made]

/-! ### The calls of a session from its start to its end -/

theorem calls_execute_of_prepare (h : prepare w o = .error e) :
    (execute w o random clock).calls = [] := by
  simp only [execute, launch, h, Except.mapError, bind, Except.bind]

theorem calls_execute_of_connect (hplan : prepare w o = .ok p)
    (h : connect w o p = .error (e, calls)) : (execute w o random clock).calls = calls := by
  simp only [execute, launch, hplan, h, Except.mapError, bind, Except.bind]

theorem calls_execute_of_powerOn (hplan : prepare w o = .ok p) (hconnect : connect w o p = .ok s)
    (h : powerOn s = .error (e, calls)) : (execute w o random clock).calls = calls := by
  simp only [execute, launch, hplan, hconnect, h, Except.mapError, bind, Except.bind]

theorem account_of_powerOn (h : powerOn s = .ok after) : after.account r = s.account r := by
  unfold powerOn at h
  split at h <;> cases h
  exact Session.account_of_tellAll ‹_›

/-- Loading the program leaves the account of a session as it is. -/
theorem account_of_load (h : load p s = .ok after) : after.account r = s.account r := by
  unfold load at h
  split at h
  · cases h
  · split at h <;> cases h
    have htold := Session.account_of_tellAll (r := r) ‹Session.tellAll _ _ = _›
    exact htold

/-- If it fails, whatever is due is released. -/
theorem handovers_of_load (h : load p s = .error (e, calls)) :
    handovers r calls = (s.account r).made ++ (s.account r).due := by
  unfold load at h
  split at h
  · cases h
    exact Session.handovers_release s
  · split at h <;> cases h
    rw [Session.handovers_release, Session.account_of_tellAll ‹_›]
    rfl

/-- Once the machine is switched on, whatever is due is released. -/
theorem handovers_execute (hplan : prepare w o = .ok p) (hconnect : connect w o p = .ok s)
    (h : powerOn s = .ok after) :
    handovers r (execute w o random clock).calls = (s.account r).made ++ (s.account r).due := by
  have hafter : after.account r = s.account r := account_of_powerOn h
  simp only [execute, launch, hplan, hconnect, h, Except.mapError, bind, Except.bind]
  cases hload : load p after with
  | error failure =>
    obtain ⟨e, calls⟩ := failure
    exact (handovers_of_load hload).trans (by rw [hafter])
  | ok loaded =>
    have hloaded : loaded.account r = s.account r := (account_of_load hload).trans hafter
    simp only
    cases hspeed : Session.interval (speed o) with
    | error e =>
      simp only [abandon]
      rw [Session.handovers_release, hloaded]
    | ok interval =>
      simp only [pure, Except.pure, report]
      rw [Session.handovers_release, Session.account_drive, hloaded]

/-! ### Switching on -/

theorem exists_powerOn (h : s.renderer.Paints) : ∃ after, powerOn s = .ok after := by
  have htold := Session.tellAll_powerOnCommands h
  rcases hall : s.tellAll Machine.powerOnCommands with ⟨after, written, problem⟩
  rw [hall] at htold
  subst htold
  exact ⟨after, by rw [powerOn, hall]⟩

/-- A window that is not painted stays open, and so does the mixer. -/
theorem powerOn_of_short {wd : Renderer.Window} (hw : s.renderer = .window wd)
    (hshort : wd.palette.Short) :
    ∃ calls, powerOn s = .error (.renderer .colourSize, calls) ∧
      ∀ r, handovers r calls = (s.account r).made := by
  have htold := Session.tellAll_powerOnCommands_of_short hw hshort
  rcases hall : s.tellAll Machine.powerOnCommands with ⟨after, written, problem⟩
  rw [hall] at htold
  subst htold
  refine ⟨calls after.events, by rw [powerOn, hall], fun r => ?_⟩
  exact congrArg Account.made (Session.account_of_tellAll hall)

/-! ### The window that is left open -/

/-- A window is opened and left open. -/
inductive Strands (w : Surroundings) (o : Options) : Prop
  /-- Its scale or its palette is of no use to it. -/
  | unusable {p : Plan} (plan : prepare w o = .ok p) (window : p.plugins.renderer = .window)
      (unusable : Unusable o)
  /-- Its background does not fit a pixel. -/
  | unpainted {p : Plan} {input : Input} {colours : Palette} (plan : prepare w o = .ok p)
      (window : p.plugins.renderer = .window) (keymap : startInput p.plugins.input o = .ok input)
      (palette : Renderer.Window.readPalette (o.value "pygame_palette") = .ok colours)
      (short : colours.Short)

/-- The plan for which a window is left open. -/
theorem Strands.of_plan (h : Strands w o) (hplan : prepare w o = .ok p) :
    p.plugins.renderer = .window ∧
      (Unusable o ∨ (∃ input, startInput p.plugins.input o = .ok input) ∧
        ∃ colours, Renderer.Window.readPalette (o.value "pygame_palette") = .ok colours ∧
          colours.Short) := by
  rcases h with ⟨plan, window, unusable⟩ | ⟨plan, window, keymap, palette, short⟩ <;>
    obtain rfl := Except.ok.inj (hplan.symm.trans plan)
  · exact ⟨window, .inl unusable⟩
  · exact ⟨window, .inr ⟨⟨_, keymap⟩, _, palette, short⟩⟩

theorem Connected.not_strands (h : Connected o p s) (hplan : prepare w o = .ok p)
    (hpaints : s.renderer.Paints) : ¬Strands w o := by
  intro hstrands
  obtain ⟨hwindow, hwhy⟩ := hstrands.of_plan hplan
  obtain ⟨wd, hwd⟩ := Renderer.exists_of_kind (h.kind.trans hwindow)
  obtain ⟨usable, read⟩ := h.window wd hwd
  rcases hwhy with unusable | ⟨-, colours, palette, short⟩
  · exact usable unusable
  · -- The background is that of the window, which paints.
    obtain rfl := Except.ok.inj (read.symm.trans palette)
    exact short.not_fits (hpaints wd hwd)

/-- A renderer that does not paint is a window with a short background. -/
theorem Connected.exists_short (h : Connected o p s) (hpaints : ¬s.renderer.Paints) :
    ∃ wd, s.renderer = .window wd ∧ wd.palette.Short := by
  simp only [Renderer.Paints, not_forall, exists_prop] at hpaints
  obtain ⟨wd, hwd, hfits⟩ := hpaints
  have hlength := Renderer.Window.length_le_of_readPalette (h.window wd hwd).2
  exact ⟨wd, hwd, Palette.short_of_not_fits hlength hfits⟩

theorem Connected.strands (h : Connected o p s) (hplan : prepare w o = .ok p)
    {wd : Renderer.Window} (hwd : s.renderer = .window wd)
    (hshort : wd.palette.Short) :
    Strands w o := by
  obtain ⟨input, keymap⟩ := h.keymap
  have hwindow : p.plugins.renderer = .window := by rw [← h.kind, hwd]; rfl
  exact .unpainted hplan hwindow keymap (h.window wd hwd).2 hshort

theorem released_not_mem (own other : Option Resource) (r : Resource) :
    .released ∉ share own r .taken ++ share other r .taken := by
  unfold share
  split <;> split <;> decide

/-- What comes of it: the host is given back, or a window is left open with all
    that was taken after it. -/
theorem execute_cases (w : Surroundings) (o : Options) (random : Nat → Int) (clock : Clock) :
    ((∀ r, GivenBack r (execute w o random clock).calls) ∧ ¬Strands w o) ∨
    (Strands w o ∧ ∃ buzzer : BuzzerKind, ∀ r, handovers r (execute w o random clock).calls =
      share (some .window) r .taken ++ share buzzer.resource? r .taken) := by
  cases hplan : prepare w o with
  | error e =>
    refine .inl ⟨fun r => .inl ?_, ?_⟩
    · rw [calls_execute_of_prepare hplan]
      rfl
    · rintro (⟨plan⟩ | ⟨plan⟩) <;> exact nomatch hplan.symm.trans plan
  | ok p =>
    have hconnects := connects w o p
    generalize hconnect : connect w o p = attempt at hconnects
    cases hconnects with
    | stranded window unusable taken =>
      refine .inr ⟨.unusable hplan window unusable, .mute, fun r => ?_⟩
      rw [calls_execute_of_connect hplan hconnect, taken]
      exact (List.append_nil _).symm
    | refused window released =>
      rw [calls_execute_of_connect hplan hconnect]
      refine .inl ⟨released, fun hstrands => ?_⟩
      rcases hstrands.of_plan hplan with ⟨hwindow, unusable | ⟨⟨_, keymap⟩, -⟩⟩
      · exact (window hwindow).1 unusable
      · obtain ⟨-, e, hinput⟩ := window hwindow
        exact nomatch hinput.symm.trans keymap
    | connected connected =>
      rename_i s
      by_cases hpaints : s.renderer.Paints
      · obtain ⟨after, hpowerOn⟩ := exists_powerOn hpaints
        refine .inl ⟨fun r => ?_, connected.not_strands hplan hpaints⟩
        rw [GivenBack, handovers_execute hplan hconnect hpowerOn, connected.account]
        exact shares_given_back _ _ r
      · obtain ⟨wd, hwd, hshort⟩ := connected.exists_short hpaints
        obtain ⟨calls, hpowerOn, hmade⟩ := powerOn_of_short hwd hshort
        refine .inr ⟨connected.strands hplan hwd hshort, p.plugins.buzzer, fun r => ?_⟩
        rw [calls_execute_of_powerOn hplan hconnect hpowerOn, hmade, connected.account,
          ← connected.kind, hwd]
        rfl

/-- Giving the host back. Whatever the options, the files, the random numbers and
    the clock, a resource that is taken from the host is released, and only once,
    unless the window is left open (`Strands`). Then it is taken and never
    released, and neither is anything else. -/
theorem given_back_iff_not_strands (w : Surroundings) (o : Options) (random : Nat → Int)
    (clock : Clock) :
    let calls := (execute w o random clock).calls
    ((∀ r, GivenBack r calls) ↔ ¬Strands w o) ∧
    (Strands w o →
      handovers .window calls = [.taken] ∧ GivenBack .terminal calls ∧
        ∀ r, .released ∉ handovers r calls) := by
  intro calls
  rcases execute_cases w o random clock with ⟨hback, hnot⟩ | ⟨hstrands, buzzer, htaken⟩
  · exact ⟨iff_of_true hback hnot, fun h => absurd h hnot⟩
  · have hwindow : handovers .window calls = [.taken] := by
      rw [htaken]
      cases buzzer <;> rfl
    refine ⟨iff_of_false (fun hback => ?_) (not_not_intro hstrands), fun _ => ⟨hwindow, ?_, ?_⟩⟩
    · have := hback .window
      rw [GivenBack, hwindow] at this
      simp only [reduceCtorEq, List.cons.injEq, and_false, or_self] at this
    · refine .inl ?_
      rw [htaken]
      cases buzzer <;> rfl
    · intro r
      rw [htaken]
      exact released_not_mem _ _ r

/-- A host with windows, and a file that holds a return. -/
def windowHost : Surroundings := ⟨⟨true, false⟩, ⟨24, 80, true⟩, fun _ => .ok [0x00, 0xEE]⟩

/-- A palette of a single colour. -/
def onePalette : Options := [("filename", .text "r"), ("pygame_palette", .text "x")]

/-- The window that is opened for it is left open. -/
theorem not_given_back_onePalette :
    handovers .window (execute windowHost onePalette (fun _ => 0) []).calls = [.taken] ∧
      ¬GivenBack .window (execute windowHost onePalette (fun _ => 0) []).calls := by
  have hwindow : handovers .window (execute windowHost onePalette (fun _ => 0) []).calls =
      [.taken] := by decide +kernel
  refine ⟨hwindow, ?_⟩
  rw [GivenBack, hwindow]
  decide

end Startup

end Chip8
