import ByteMachine.Proofs.Arguments
import ByteMachine.Proofs.ConfigText
import ByteMachine.Proofs.Observers
import ByteMachine.Proofs.Responses

/-!
Flags and settings. A flag that overrides a setting might as well be written into the file: the
program answers the same. A flag that only looks on, and what is to be logged, make no difference
to the answer at all.
-/

namespace ByteMachine

/-- The settings, with tracing on or off. -/
def Config.traced (c : Config) (on : Bool) : Config :=
  { c with execution := { c.execution with traceInstructions := on } }

/-- A load is the same with and without a trace. -/
lemma Simulator.load_traced (s : Simulator) (on : Bool) (file : Array UInt8) :
    (s.traced on).load file = (s.load file).map fun r => (r.1.traced on, r.2) := by
  have h := s.machine.install_traced on file
  simp only [load, traced, h]
  rcases s.machine.install file with e | i <;> rfl

namespace CommandLine

variable {files files' : Files} {setting setting' : Option String} {o o' : Options}
  {c c' : Config} {f : Flag} {flags : List Flag}

/-! ### Answers that are alike -/

/-- Nothing is different but what is written on the side. -/
structure SameAnswer (r r' : Response) : Prop where
  exitCode : r'.exitCode = r.exitCode
  output : r'.output = r.output

lemma sameAnswer_failed (m m' : String) : SameAnswer (failed m) (failed m') := ⟨rfl, rfl⟩

lemma sameAnswer_list (t t' : Threshold) (s : Simulator) (on : Bool) (effects : List Effect) :
    SameAnswer (list t s effects) (list t' (s.traced on) effects) := ⟨rfl, rfl⟩

lemma closing_traced (s : Simulator) (on : Bool) (outcome : Outcome) :
    closing (s.traced on) outcome = closing s outcome := rfl

/-- A run is the same with and without a trace. -/
lemma sameAnswer_execute (t t' : Threshold) (s : Simulator) (on : Bool) (effects : List Effect) :
    SameAnswer (execute o t s effects) (execute o' t' (s.traced on) effects) := by
  obtain ⟨⟨on', hafter⟩, hanswer, hemitted⟩ := s.next_traced on .run
  have hafter' : (s.traced on).run.1 = s.run.1.traced on' := hafter
  have houtcome : (s.traced on).run.2.1 = s.run.2.1 := Answer.ended.inj hanswer
  refine ⟨rfl, ?_⟩
  rw [output_execute, output_execute, Effect.emitted_append, Effect.emitted_append, hafter',
    houtcome, closing_traced]
  exact congrArg (fun bytes => (Latin1.text (Effect.emitted effects ++ bytes) ++
    closing s.run.1 s.run.2.1).toUTF8.data) hemitted

/-- **What an answer depends on**: the settings after the options, tracing apart, the contents of
the program, and whether it is to be listed. -/
lemma sameAnswer_of_override (hc : Gives files o.config c) (hc' : Gives files' o'.config c')
    (hprogram : files' o'.program = files o.program)
    (hlist : o'.Has .disassemble ↔ o.Has .disassemble)
    (hsettings : (o'.override c').traced false = (o.override c).traced false) :
    SameAnswer (o.respond files setting) (o'.respond files' setting') := by
  by_cases himage : ∃ file, files o.program = .ok file ∧ IsImage file
  · obtain ⟨file, hfile, himage⟩ := himage
    obtain ⟨⟨s, loading⟩, hload⟩ := (exists_load_iff (s := .ofConfig (o.override c))).2 himage
    -- Tracing apart, both simulators are the same, and stay so when the program is loaded.
    let on := (o'.override c').execution.traceInstructions
    have hmachine : Simulator.ofConfig (o'.override c') =
        (Simulator.ofConfig (o.override c)).traced on := by
      have htraced := congrArg (Config.traced · on) hsettings
      exact congrArg Simulator.ofConfig htraced
    have hload' : (Simulator.ofConfig (o'.override c')).load file = .ok (s.traced on, loading) := by
      rw [hmachine, Simulator.load_traced, hload]
      rfl
    rw [respond_of_load hc hfile hload, respond_of_load hc' (hprogram.trans hfile) hload']
    by_cases h : o.Has .disassemble
    · rw [if_pos h, if_pos (hlist.2 h)]
      exact sameAnswer_list ..
    · rw [if_neg h, if_neg (hlist.not.2 h)]
      exact sameAnswer_execute ..
  · obtain ⟨message, hfailed⟩ :=
      respond_of_not_accepted (fun h : Accepted files o => himage h.program) setting
    obtain ⟨message', hfailed'⟩ := respond_of_not_accepted
      (fun h : Accepted files' o' => himage (hprogram ▸ h.program)) setting'
    rw [hfailed, hfailed']
    exact sameAnswer_failed ..

/-! ### Flags as edits -/

namespace Flag

/-- The settings with what the flag says written into them. -/
def edit : Flag → Config → Config
  | .maxSteps n, c => { c with execution := { c.execution with maxSteps := some n } }
  | .switch .strictRegisters, c =>
    { c with execution := { c.execution with strictRegisters := true } }
  | .switch _, c => c

def LooksOn (f : Flag) : Prop := f = .switch .trace ∨ f = .switch .stats

lemma edit_of_looksOn (h : f.LooksOn) (c : Config) : f.edit c = c := by
  obtain rfl | rfl := h <;> rfl

lemma memory_edit (f : Flag) (c : Config) : (f.edit c).memory = c.memory := by
  rcases f with n | s
  · rfl
  · cases s <;> rfl

end Flag

/-- The settings with what all flags say written into them. -/
def edits (flags : List Flag) (c : Config) : Config := flags.foldl (fun c f => f.edit c) c

lemma edits_of_looksOn (h : ∀ f ∈ flags, f.LooksOn) (c : Config) : edits flags c = c := by
  induction flags with
  | nil => rfl
  | cons f flags ih =>
    obtain ⟨hf, hflags⟩ := List.forall_mem_cons.1 h
    rw [edits, List.foldl_cons, Flag.edit_of_looksOn hf]
    exact ih hflags

lemma memory_edits (flags : List Flag) (c : Config) : (edits flags c).memory = c.memory := by
  induction flags generalizing c with
  | nil => rfl
  | cons f flags ih =>
    rw [edits, List.foldl_cons]
    exact (ih (f.edit c)).trans (f.memory_edit c)

lemma Gives.isValid {config : Option String} (h : Gives files config c) : c.IsValid := by
  cases h with
  | defaults => exact ⟨by decide, by decide, by decide⟩
  | file _ _ _ h => exact h

lemma fromUTF8?_utf8 (text : String) : String.fromUTF8? ⟨utf8 text⟩ = some text :=
  dif_pos text.isValidUTF8

/-- **There is a file for settings that have been edited.** -/
theorem gives_edits {config : Option String} (h : Gives files config c) (flags : List Flag)
    {path : String} (hfile : files' path = .ok (utf8 (edits flags c).text)) :
    Gives files' (some path) (edits flags c) := by
  obtain ⟨hpos, hle, hport⟩ := h.isValid
  have hmemory := memory_edits flags c
  have hvalid : (edits flags c).IsValid := ⟨hmemory ▸ hpos, hmemory ▸ hle, hmemory ▸ hport⟩
  have hsize : (edits flags c).memory.size < UInt64.size :=
    Nat.lt_of_le_of_lt hvalid.size_le (by decide)
  exact .file hfile (fromUTF8?_utf8 _)
    (Config.readWhole_of_writes hsize (edits flags c).writes_text) hvalid

/-- What `full` asks for is what `bare` asks for with flags. -/
structure Options.Reduces (flags : List Flag) (bare full : Options) : Prop where
  program : bare.program = full.program
  config : bare.config = full.config
  list : .switch .disassemble ∉ flags → (bare.Has .disassemble ↔ full.Has .disassemble)
  settings : ∀ c, (bare.override (edits flags c)).traced false = (full.override c).traced false

/-- **A flag over the settings is an edit of them.** -/
lemma override_edit (h : o.Beside f o') (c : Config) :
    (o.override (f.edit c)).traced false = (o'.override c).traced false := by
  have hbudgets := h.budgets
  have hstrict := h.switches .strictRegisters
  have hsteps : o.maxSteps.or (f.edit c).execution.maxSteps =
      o'.maxSteps.or c.execution.maxSteps := by
    rcases f with n | s
    · obtain ⟨hbare, hfull⟩ := hbudgets
      rw [hbare, hfull]
      rfl
    · have hsame : o'.maxSteps = o.maxSteps := hbudgets
      rw [hsame]
      cases s <;> rfl
  have hchecks : (o.Has .strictRegisters || (f.edit c).execution.strictRegisters) =
      (o'.Has .strictRegisters || c.execution.strictRegisters) := by
    by_cases hf : f = .switch .strictRegisters
    · have hfull : o'.Has .strictRegisters := hstrict.2 (Or.inl hf)
      subst hf
      simp [hfull, Flag.edit]
    · have hsame : o'.Has .strictRegisters ↔ o.Has .strictRegisters :=
        hstrict.trans (or_iff_right hf)
      have hkept : (f.edit c).execution.strictRegisters = c.execution.strictRegisters := by
        rcases f with n | s
        · rfl
        · cases s with
          | strictRegisters => exact absurd rfl hf
          | trace | disassemble | stats => rfl
      rw [hkept]
      simp only [hsame]
  simp only [Options.override, Config.traced, f.memory_edit, hsteps, hchecks]

lemma Options.Reduces.more {o'' : Options} (h : Options.Reduces flags o o') (hf : o'.Beside f o'') :
    Options.Reduces (f :: flags) o o'' where
  program := h.program.trans hf.program.symm
  config := h.config.trans hf.config.symm
  list hlist := by
    rw [List.mem_cons, not_or] at hlist
    rw [h.list hlist.2]
    exact ((hf.switches .disassemble).trans (or_iff_right (Ne.symm hlist.1))).symm
  settings c := (h.settings (f.edit c)).trans (override_edit hf c)

/-! ### Flags that are left out -/

/-- Some flags are added to arguments, each anywhere before the end of the options. -/
inductive Adds : List Flag → List String → List String → Prop
  | none (arguments : List String) : Adds [] arguments arguments
  | more {flags : List Flag} {f : Flag} {bare front back tokens : List String}
      (h : Adds flags bare (front ++ back)) (hfront : "--" ∉ front) (hf : f.Written tokens) :
      Adds (f :: flags) bare (front ++ tokens ++ back)

/-- What is asked for without some flags, be it to run or to show a page. -/
inductive Request.Reduces (flags : List Flag) : Request → Request → Prop
  | run {bare full : Options} (h : Options.Reduces flags bare full) :
      Reduces flags (.run bare) (.run full)
  | page (p : Page) : Reduces flags (.page p) (.page p)

/-- Flags may be left out one after the other. -/
lemma Adds.reduces {bare full : List String} {request : Request} (hadds : Adds flags bare full)
    (h : Request.ofArguments full = .ok request) :
    ∃ bareRequest, Request.ofArguments bare = .ok bareRequest ∧
      bareRequest.Reduces flags request := by
  induction hadds generalizing request with
  | none arguments =>
    refine ⟨request, h, ?_⟩
    rcases request with o | p
    · exact .run ⟨rfl, rfl, fun _ => Iff.rfl, fun _ => rfl⟩
    · exact .page p
  | more hadds hfront hf ih =>
    obtain ⟨between, hbetween, hbeside⟩ := ofArguments_without hfront hf h
    obtain ⟨bareRequest, hbare, hreduces⟩ := ih hbetween
    refine ⟨bareRequest, hbare, ?_⟩
    cases hbeside with
    | run hbeside =>
      cases hreduces with
      | run hreduces => exact .run (hreduces.more hbeside)
    | page p =>
      cases hreduces with
      | page => exact .page p

/-- The answer to arguments is that to what they ask for. -/
lemma respond_of_ofArguments {arguments : List String}
    (h : Request.ofArguments arguments = .ok (.run o)) (files : Files) (setting : Option String) :
    respond arguments files setting = o.respond files setting := by
  rw [respond, h]

/-- Flags that only look on make no difference, be the files accepted or not. -/
lemma sameAnswer_of_looksOn {bare full : List String} {bareRequest request : Request}
    (hfull : Request.ofArguments full = .ok request)
    (hbare : Request.ofArguments bare = .ok bareRequest) (h : bareRequest.Reduces flags request)
    (hlooks : ∀ f ∈ flags, f.LooksOn) (files : Files) (setting setting' : Option String) :
    SameAnswer (respond full files setting) (respond bare files setting') := by
  cases h with
  | page p =>
    rw [respond, hfull, respond, hbare]
    exact ⟨rfl, rfl⟩
  | @run o' o h =>
    rw [respond_of_ofArguments hfull, respond_of_ofArguments hbare]
    have hlist : .switch .disassemble ∉ flags := by
      intro hmem
      obtain h | h := hlooks _ hmem <;> cases h
    by_cases hconfig : ∃ c, Gives files o.config c
    · obtain ⟨c, hc⟩ := hconfig
      have hsettings := h.settings c
      rw [edits_of_looksOn hlooks] at hsettings
      exact sameAnswer_of_override hc (h.config ▸ hc) (congrArg files h.program) (h.list hlist)
        hsettings
    · obtain ⟨message, hfailed⟩ :=
        respond_of_not_accepted (fun h : Accepted files o => hconfig h.config) setting
      obtain ⟨message', hfailed'⟩ := respond_of_not_accepted
        (fun h' : Accepted files o' => hconfig (h.config ▸ h'.config)) setting'
      rw [hfailed, hfailed']
      exact sameAnswer_failed ..

/-- **Flags equal edited settings, and to look on changes nothing.** Arguments that are accepted
with some flags are accepted without them. If the flags only look on, the answer is the same with
and without them, whatever is to be logged. If they override settings, it is that of what is asked
for without them, with a file that gives the settings with the edits that the flags stand for; and
so for all flags but the one that asks for a listing. A flag that is not there yet is accepted
wherever an option may stand. -/
theorem flags_are_settings {bare full : List String} {request : Request}
    (hadds : Adds flags bare full) (h : Request.ofArguments full = .ok request) :
    (∃ bareRequest, Request.ofArguments bare = .ok bareRequest ∧
      ((∀ f ∈ flags, f.LooksOn) → ∀ files setting setting',
        SameAnswer (respond full files setting) (respond bare files setting')) ∧
      ∀ o, request = .run o → ∃ o', bareRequest = .run o' ∧ o'.program = o.program ∧
        o'.config = o.config ∧ (.switch .disassemble ∉ flags →
          ∀ (config : Option String) (files files' : Files) (setting setting' : Option String)
            (c : Config), Gives files o.config c → Gives files' config (edits flags c) →
            files' o.program = files o.program →
            SameAnswer (respond full files setting)
              (Options.respond { o' with config } files' setting'))) ∧
    ∀ (o : Options) (f : Flag) (front back tokens : List String), request = .run o → o.Lacks f →
      full = front ++ back → "--" ∉ front → Closed front → f.Written tokens →
      ∃ o', Request.ofArguments (front ++ tokens ++ back) = .ok (.run o') ∧ o.Beside f o' := by
  constructor
  · obtain ⟨bareRequest, hbare, hreduces⟩ := hadds.reduces h
    refine ⟨bareRequest, hbare, sameAnswer_of_looksOn h hbare hreduces, ?_⟩
    rintro o rfl
    cases hreduces with
    | @run o' o hreduces =>
      refine ⟨o', rfl, hreduces.program, hreduces.config, ?_⟩
      intro hlist config files files' setting setting' c hc hc' hprogram
      rw [respond_of_ofArguments h]
      refine sameAnswer_of_override hc hc' ?_ (hreduces.list hlist) (hreduces.settings c)
      rw [← hprogram, ← hreduces.program]
  · rintro o f front back tokens rfl hnew rfl hfront hclosed hf
    exact ofArguments_with hfront hclosed hf h hnew

/-- An instruction is passed, and the next one names a register that does not exist. -/
def namesNine : Array UInt8 := (Image.ofProgram 0 [.nop, .load 9 1, .halt]).encode.toArray

/-- Small settings, and the same with all edits that there are. -/
def smallFile : Files := fun path =>
  .ok (if path = "c.json" then utf8 "[[64, 60]]" else namesNine)

def editedFile (flags : List Flag) : Files := fun path =>
  .ok (if path = "c.json" then utf8 (edits flags { memory := ⟨64, 60⟩ }).text else namesNine)

/-- The flags are written into the file, and what is logged is changed. -/
theorem flags_are_settings_strict :
    let flags : List Flag := [.switch .trace, .maxSteps 5, .switch .strictRegisters]
    let full := ["--trace", "--max-steps", "+5", "--config=c.json", "p.mhfb", "--strict-registers"]
    let bare := ["--config=c.json", "p.mhfb"]
    Adds flags bare full ∧
      Request.ofArguments full =
        .ok (.run ⟨"p.mhfb", some "c.json", some 5, [.strictRegisters, .trace]⟩) ∧
      SameAnswer (respond full smallFile none) (respond bare (editedFile flags) (some "debug")) ∧
      (respond full smallFile none).output = utf8 (unlines
        ["[ERROR] invalid register r9 in instruction at 0x0001", "Execution finished.", "r0 = 0",
          "r1 = 0", "r2 = 0", "r3 = 0", "r4 = 0", "r5 = 0", "r6 = 0", "r7 = 0"]) := by
  intro flags full bare
  have hstrict : Adds [.switch .strictRegisters] bare (bare ++ ["--strict-registers"] ++ []) :=
    .more (.none _) (by decide) (.switch _)
  have hsteps : Adds [.maxSteps 5, .switch .strictRegisters] bare
      ([] ++ ["--max-steps", "+5"] ++ (bare ++ ["--strict-registers"])) :=
    .more hstrict (by decide) (.apart (by decide))
  have hadds : Adds flags bare
      ([] ++ ["--trace"] ++ (["--max-steps", "+5"] ++ bare ++ ["--strict-registers"])) :=
    .more hsteps (by decide) (.switch _)
  have hfull : Request.ofArguments full =
      .ok (.run ⟨"p.mhfb", some "c.json", some 5, [.strictRegisters, .trace]⟩) := by
    decide +kernel
  obtain ⟨⟨bareRequest, hbare, -, hmoved⟩, -⟩ := flags_are_settings hadds hfull
  obtain rfl : .run ⟨"p.mhfb", some "c.json", none, []⟩ = bareRequest :=
    Except.ok.inj (Eq.trans (by decide +kernel) hbare)
  obtain ⟨o', ho', -, -, hsame⟩ := hmoved _ rfl
  cases ho'
  have hsmall : Options.fileConfig ⟨"p.mhfb", some "c.json", none, []⟩ smallFile =
      .ok { memory := ⟨64, 60⟩ } := by decide +kernel
  have hgives := fileConfig_eq_ok_iff.1 hsmall
  have hedited : editedFile flags "c.json" =
      .ok (utf8 (edits flags { memory := ⟨64, 60⟩ }).text) := congrArg Except.ok (if_pos rfl)
  have hprogram : editedFile flags "p.mhfb" = smallFile "p.mhfb" := by decide +kernel
  refine ⟨hadds, hfull, ?_, by decide +kernel⟩
  rw [respond_of_ofArguments hbare]
  exact hsame (by simp [flags]) (some "c.json") smallFile (editedFile flags) none (some "debug") _
    hgives (gives_edits hgives flags hedited) hprogram

end CommandLine

end ByteMachine
