import Chronomap.Command.Run
import Chronomap.Proofs.Command.Files

/-!
# A style is dated as a whole or not at all

Five things can stand in the way of a style being dated, and each of them can be seen in the
workspace as it is before the command (`Hinders`).  They are looked for in a fixed order, and all
of them before anything is written.  So a command fails exactly if one of them is there; then it
reports the first one and has changed nothing.  Otherwise it prints the dated style, or stores it
in the one file that is named for it:

    runIn … = (.error f, w') → w' = w ∧ Reports … f
    runIn … = (.ok printed, w') → ∃ out, DatedFrom … out ∧ Delivered w out output printed w'
                                                                        (apply_all_or_nothing)

It does not matter whether the settings, the style and the output are one file, or whether the
style comes from standard input.
-/

namespace Chronomap.Command

/-- What a command prints or how it fails, and the workspace after it. -/
def runIn (w : Workspace) (input : Content) (today : String) (command : Command) :
    Except Failure String × Workspace :=
  (run (Workspace.surroundings input today) command).run.run w

/-! ## What a command reads -/

/-- The text of a style, where `-` is standard input. -/
def styleIn (w : Workspace) (input : Content) (style : String) : Except IoFault String :=
  if style = "-" then input.read else w.read style

/-- The settings in the file that is given for them, by default the standard ones. -/
inductive HasSettings (w : Workspace) : (config : Option String) → Settings → Prop
  | standard : HasSettings w none {}
  | file {path text : String} {settings : Settings} (read : w.read path = .ok text)
      (parse : Settings.parse text = .ok settings) : HasSettings w (some path) settings

/-! ## What can go wrong -/

/-- What stands in the way of a style being dated, as seen in the workspace before the command. -/
inductive Hinders (w : Workspace) (input : Content) (style date : String)
    (output config : Option String) : Failure → Prop
  | settingsUnreadable {path : String} {fault : IoFault} (given : config = some path)
      (read : w.read path = .error fault) :
      Hinders w input style date output config (.settingsUnreadable fault)
  | settings {path text : String} {fault : SettingsFault} (given : config = some path)
      (read : w.read path = .ok text) (parse : Settings.parse text = .error fault) :
      Hinders w input style date output config (.settings fault)
  | styleUnreadable {fault : IoFault} (read : styleIn w input style = .error fault) :
      Hinders w input style date output config (.styleUnreadable style fault)
  | notStyle {text : String} (read : styleIn w input style = .ok text)
      (parse : MapStyle.parse? text = none) :
      Hinders w input style date output config .notStyle
  | date (unresolved : ∀ numbering, Period.ofIsoDate? numbering date = none) :
      Hinders w input style date output config (.date ⟨date⟩)
  | notWritten {path : String} {fault : IoFault} (given : output = some path)
      (write : ∀ text, w.write path text = .error fault) :
      Hinders w input style date output config (.notWritten path fault)

/-- When a failure is looked for. -/
def Failure.stage : Failure → Nat
  | settingsUnreadable _ => 0
  | settings _ => 0
  | styleUnreadable _ _ => 1
  | notStyle => 2
  | date _ => 3
  | notWritten _ _ => 4

/-- The first of all failures that stand in the way. -/
def Reports (w : Workspace) (input : Content) (style date : String)
    (output config : Option String) (f : Failure) : Prop :=
  Hinders w input style date output config f ∧
    ∀ f', Hinders w input style date output config f' → f.stage ≤ f'.stage

section

variable {w : Workspace} {input : Content} {style date : String} {output config : Option String}
  {f : Failure}

/-! ### Stages that are passed -/

def Clear (w : Workspace) (input : Content) (style date : String) (output config : Option String)
    (n : Nat) : Prop :=
  ∀ f, Hinders w input style date output config f → n ≤ f.stage

theorem Clear.reports {n : Nat} (h : Clear w input style date output config n)
    (hf : Hinders w input style date output config f) (hstage : f.stage = n) :
    Reports w input style date output config f :=
  ⟨hf, fun f' hf' => hstage ▸ h f' hf'⟩

theorem Clear.succ {n : Nat} (h : Clear w input style date output config n)
    (hn : ∀ f, Hinders w input style date output config f → f.stage ≠ n) :
    Clear w input style date output config (n + 1) :=
  fun f hf => Nat.lt_of_le_of_ne (h f hf) (hn f hf).symm

theorem clear_zero : Clear w input style date output config 0 := fun _ _ => Nat.zero_le _

theorem clear_one {settings : Settings} (h : HasSettings w config settings) :
    Clear w input style date output config 1 := by
  refine clear_zero.succ ?_
  intro f hf
  cases hf with
  | settingsUnreadable given read =>
    cases h with
    | standard => cases given
    | file hread hparse =>
      cases given
      cases read.symm.trans hread
  | settings given read parse =>
    cases h with
    | standard => cases given
    | file hread hparse =>
      cases given
      cases read.symm.trans hread
      cases parse.symm.trans hparse
  | styleUnreadable read | notStyle read parse | date unresolved | notWritten given write =>
    exact Nat.succ_ne_zero _

theorem Clear.two {text : String} (h : Clear w input style date output config 1)
    (hread : styleIn w input style = .ok text) : Clear w input style date output config 2 := by
  refine h.succ ?_
  intro f hf hstage
  cases hf with
  | styleUnreadable read => cases read.symm.trans hread
  | settingsUnreadable given read | settings given read parse | notStyle read parse
  | date unresolved | notWritten given write => cases hstage

theorem Clear.three {text : String} {s : MapStyle} (h : Clear w input style date output config 2)
    (hread : styleIn w input style = .ok text) (hparse : MapStyle.parse? text = some s) :
    Clear w input style date output config 3 := by
  refine h.succ ?_
  intro f hf hstage
  cases hf with
  | notStyle read parse =>
    cases read.symm.trans hread
    cases parse.symm.trans hparse
  | settingsUnreadable given read | settings given read parse | styleUnreadable read
  | date unresolved | notWritten given write => cases hstage

theorem Clear.four {numbering : Numbering} {p : Period}
    (h : Clear w input style date output config 3)
    (hdate : Period.ofIsoDate? numbering date = some p) :
    Clear w input style date output config 4 := by
  refine h.succ ?_
  intro f hf hstage
  cases hf with
  | date unresolved => cases (unresolved numbering).symm.trans hdate
  | settingsUnreadable given read | settings given read parse | styleUnreadable read
  | notStyle read parse | notWritten given write => cases hstage

theorem Clear.five (h : Clear w input style date output config 4)
    (hwrite : ∀ path, output = some path → ∃ text w', w.write path text = .ok w') :
    Clear w input style date output config 5 := by
  refine h.succ ?_
  intro f hf hstage
  cases hf with
  | notWritten given write =>
    obtain ⟨text, w', hw⟩ := hwrite _ given
    cases (write text).symm.trans hw
  | settingsUnreadable given read | settings given read parse | styleUnreadable read
  | notStyle read parse | date unresolved => cases hstage

theorem Failure.stage_lt_five (f : Failure) : f.stage < 5 := by
  cases f <;> simp [stage]

theorem Clear.not_hinders (h : Clear w input style date output config 5) (f : Failure) :
    ¬ Hinders w input style date output config f :=
  fun hf => Nat.not_lt_of_le (h f hf) f.stage_lt_five

end

/-! ## What comes out -/

/-- A text is the style of a command, dated, as a text. -/
inductive DatedFrom (w : Workspace) (input : Content) (style date : String)
    (config : Option String) : String → Prop
  | mk {settings : Settings} {text : String} {s : MapStyle} {guarded : MapStyle.Guarded}
      (given : HasSettings w config settings) (read : styleIn w input style = .ok text)
      (parse : MapStyle.parse? text = some s)
      (select : s.select settings (.written date) = .ok guarded) :
      DatedFrom w input style date config guarded.style.toJson.pretty

/-- A text is printed, or stored in the file that is named for it and not printed. -/
inductive Delivered (w : Workspace) (out : String) :
    (output : Option String) → (printed : String) → (w' : Workspace) → Prop
  | printed : Delivered w out none (out ++ "\n") w
  | stored {path : String} {w' : Workspace}
      (stored : Workspace.Stored w w' path (out ++ "\n")) : Delivered w out (some path) "" w'

/-- A result and the workspace after it: a failure is the first that hinders, and nothing has
changed; else nothing hinders, and the dated style is where it was asked for. -/
def AllOrNothing (w : Workspace) (input : Content) (style date : String)
    (output config : Option String) : Except Failure String × Workspace → Prop
  | (.error f, w') => w' = w ∧ Reports w input style date output config f
  | (.ok printed, w') =>
    (∀ f, ¬ Hinders w input style date output config f) ∧
      ∃ out, DatedFrom w input style date config out ∧ Delivered w out output printed w'

section

variable {w : Workspace} {input : Content} {today style date : String}
  {output config : Option String}

/-! ### Steps -/

/-- What follows a failure is not run. -/
theorem run_bind {α β : Type} (x : ExceptT Failure (StateM Workspace) α)
    (next : α → ExceptT Failure (StateM Workspace) β) (w : Workspace) :
    (x >>= next).run.run w =
      match x.run.run w with
      | (.ok a, w') => (next a).run.run w'
      | (.error f, w') => (.error f, w') := by
  rw [ExceptT.run_bind, StateT.run_bind]
  obtain ⟨result, w'⟩ := x.run.run w
  cases result <;> rfl

theorem run_pure {α : Type} (a : α) (w : Workspace) :
    (pure a : ExceptT Failure (StateM Workspace) α).run.run w = (.ok a, w) := rfl

theorem mapError_ok {α β γ : Type} (f : β → γ) (a : α) :
    (Except.ok a : Except β α).mapError f = .ok a := rfl

theorem mapError_error {α β γ : Type} (f : β → γ) (e : β) :
    (Except.error e : Except β α).mapError f = .error (f e) := rfl

theorem run_orFail {α β : Type} (failure : β → Failure) (result : Except β α) (w : Workspace) :
    (orFail failure result : ExceptT Failure (StateM Workspace) α).run.run w =
      (result.mapError failure, w) := by
  cases result <;> rfl

/-- What the world does is no failure of the command yet. -/
theorem run_liftM {α : Type} (act : StateM Workspace α) (w : Workspace) :
    (liftM act : ExceptT Failure (StateM Workspace) α).run.run w =
      (.ok (act.run w).1, (act.run w).2) := rfl

/-- Files are read as they are. -/
theorem run_readFile (path : String) (w : Workspace) :
    (liftM ((Workspace.surroundings input today).readFile path) :
      ExceptT Failure (StateM Workspace) _).run.run w = (.ok (w.read path), w) := rfl

theorem run_readInput (w : Workspace) :
    (liftM (Workspace.surroundings input today).readInput :
      ExceptT Failure (StateM Workspace) _).run.run w = (.ok input.read, w) := rfl

theorem run_loadSettings (output : Option String) :
    (∃ settings, HasSettings w config settings ∧
      (loadSettings (Workspace.surroundings input today) config).run.run w = (.ok settings, w)) ∨
    ∃ f, Reports w input style date output config f ∧
      (loadSettings (Workspace.surroundings input today) config).run.run w = (.error f, w) := by
  cases config with
  | none => exact .inl ⟨{}, .standard, rfl⟩
  | some path =>
    simp only [loadSettings, run_bind, run_readFile, run_orFail]
    cases hread : w.read path with
    | error fault => exact .inr ⟨_, clear_zero.reports (.settingsUnreadable rfl hread) rfl, rfl⟩
    | ok text =>
      cases hparse : Settings.parse text with
      | error fault =>
        refine .inr ⟨_, clear_zero.reports (.settings rfl hread hparse) rfl, ?_⟩
        simp only [mapError_ok, hparse, mapError_error]
      | ok settings =>
        refine .inl ⟨settings, .file hread hparse, ?_⟩
        simp only [mapError_ok, hparse]

theorem run_loadStyle (w : Workspace) (input : Content) (today style : String) :
    (loadStyle (Workspace.surroundings input today) style).run.run w =
      ((styleIn w input style).mapError (.styleUnreadable style), w) := by
  unfold loadStyle styleIn
  split
  · simp only [run_bind, run_readInput, run_orFail]
  · simp only [run_bind, run_readFile, run_orFail]

/-- The dated style, or what is wrong with it or with the date. -/
theorem dated_cases (settings : Settings) (date text : String) :
    (∃ s p guarded, MapStyle.parse? text = some s ∧
      Period.ofIsoDate? settings.numbering date = some p ∧
      s.select settings (.written date) = .ok guarded ∧
      dated settings date text = .ok guarded.style.toJson.pretty) ∨
    (MapStyle.parse? text = none ∧ dated settings date text = .error .notStyle) ∨
    ∃ s, MapStyle.parse? text = some s ∧
      (∀ numbering, Period.ofIsoDate? numbering date = none) ∧
      dated settings date text = .error (.date ⟨date⟩) := by
  cases hs : MapStyle.parse? text with
  | none => exact .inr (.inl ⟨rfl, by simp only [dated, hs]⟩)
  | some s =>
    cases hd : WrittenDate.ofString? date with
    | none =>
      have hnone : ∀ numbering, Period.ofIsoDate? numbering date = none := by
        intro numbering
        rw [Period.ofIsoDate?, hd]
        rfl
      refine .inr (.inr ⟨s, rfl, hnone, ?_⟩)
      simp only [dated, hs, MapStyle.select, Period.ofSelection?, hnone, Selection.label]
    | some d =>
      have hperiod : Period.ofIsoDate? settings.numbering date =
          some (.ofWrittenDate settings.numbering d) := by
        rw [Period.ofIsoDate?, hd]
        rfl
      have hselect : s.select settings (.written date) =
          .ok (s.constrain settings.qualifier (.ofWrittenDate settings.numbering d)) := by
        simp only [MapStyle.select, Period.ofSelection?, hperiod]
      exact .inl ⟨s, _, _, rfl, hperiod, hselect, by simp only [dated, hs, hselect]⟩

theorem run_writeFile (path text : String) (w : Workspace) :
    (liftM ((Workspace.surroundings input today).writeFile path text) :
      ExceptT Failure (StateM Workspace) _).run.run w =
      match w.write path text with
      | .ok w' => (.ok (.ok ()), w')
      | .error fault => (.ok (.error fault), w) := by
  simp only [run_liftM, Workspace.surroundings, StateT.run_bind, StateT.run_get, pure_bind]
  cases w.write path text with
  | error fault => rfl
  | ok w' => rfl

def deliver (w : Workspace) (text : String) : Option String → Except Failure String × Workspace
  | none => (.ok text, w)
  | some path =>
    match w.write path text with
    | .ok w' => (.ok "", w')
    | .error fault => (.error (.notWritten path fault), w)

theorem runIn_of_settings {settings : Settings}
    (h : (loadSettings (Workspace.surroundings input today) config).run.run w =
      (.ok settings, w)) :
    runIn w input today (.apply style (some date) output config) =
      match styleIn w input style with
      | .error fault => (.error (.styleUnreadable style fault), w)
      | .ok text =>
        match dated settings date text with
        | .error f => (.error f, w)
        | .ok out => deliver w (out ++ "\n") output := by
  simp only [runIn, run, run_bind, h, run_loadStyle, run_pure, run_orFail]
  cases styleIn w input style with
  | error fault => rfl
  | ok text =>
    simp only [mapError_ok]
    cases dated settings date text with
    | error f => rfl
    | ok out =>
      cases output with
      | none => rfl
      | some path =>
        simp only [mapError_ok, run_bind, run_writeFile, deliver]
        cases w.write path (out ++ "\n") with
        | error fault => rfl
        | ok w' => rfl

/-! ### All steps together -/

theorem allOrNothing_deliver {out : String} (h : Clear w input style date output config 4)
    (hout : DatedFrom w input style date config out) :
    AllOrNothing w input style date output config (deliver w (out ++ "\n") output) := by
  cases output with
  | none =>
    have hfive := h.five fun path hpath => nomatch hpath
    exact ⟨hfive.not_hinders, out, hout, .printed⟩
  | some path =>
    rw [deliver]
    cases hwrite : w.write path (out ++ "\n") with
    | error fault =>
      -- Whether a text can be written does not depend on the text.
      have hnot := fun text => (Workspace.write_error_iff (out ++ "\n") text).1 hwrite
      exact ⟨rfl, h.reports (.notWritten rfl hnot) rfl⟩
    | ok w' =>
      have hfive := h.five fun path hpath => ⟨_, w', Option.some.inj hpath ▸ hwrite⟩
      exact ⟨hfive.not_hinders, out, hout, .stored (Workspace.stored_of_write hwrite)⟩

theorem allOrNothing_of_settings {settings : Settings} (h : HasSettings w config settings)
    (hrun : (loadSettings (Workspace.surroundings input today) config).run.run w =
      (.ok settings, w)) :
    AllOrNothing w input style date output config
      (runIn w input today (.apply style (some date) output config)) := by
  have hone : Clear w input style date output config 1 := clear_one h
  rw [runIn_of_settings hrun]
  cases hread : styleIn w input style with
  | error fault => exact ⟨rfl, hone.reports (.styleUnreadable hread) rfl⟩
  | ok text =>
    have htwo := hone.two hread
    rcases dated_cases settings date text with
      ⟨s, p, guarded, hparse, hperiod, hselect, hdated⟩ | ⟨hparse, hdated⟩ |
        ⟨s, hparse, hnone, hdated⟩
    · simp only [hdated]
      exact allOrNothing_deliver ((htwo.three hread hparse).four hperiod)
        (.mk h hread hparse hselect)
    · simp only [hdated]
      exact ⟨rfl, htwo.reports (.notStyle hread hparse) rfl⟩
    · simp only [hdated]
      exact ⟨rfl, (htwo.three hread hparse).reports (.date hnone) rfl⟩

end

/-- A command either dates the style, or reports the first thing that hinders it and changes no
file. -/
theorem apply_all_or_nothing (w : Workspace) (input : Content) (today style date : String)
    (output config : Option String) :
    AllOrNothing w input style date output config
      (runIn w input today (.apply style (some date) output config)) := by
  rcases @run_loadSettings w input today style date config output with
    ⟨settings, hsettings, hrun⟩ | ⟨f, hf, hrun⟩
  · exact allOrNothing_of_settings hsettings hrun
  · rw [runIn, run, run_bind, hrun]
    exact ⟨rfl, hf⟩

end Chronomap.Command
