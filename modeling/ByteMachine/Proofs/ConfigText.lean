import ByteMachine.Config.Reader
import ByteMachine.Proofs.RecordText

/-!
Settings as they are written. A text that is accepted gives settings that keep their bounds, and
settings that keep their bounds are read from every text that writes them.
-/

namespace ByteMachine

namespace Config

open Json

/-! ### Texts of settings -/

def memoryEntries : List (Entry MemoryConfig) :=
  [{ key := "size"
     Writes c v := v = decimal c.size
     IsDefault c := c.size = 65536 },
   { key := "output_port"
     Writes c v := v = decimal c.outputPort.toNat
     IsDefault c := c.outputPort = 65280 }]

/-- A limit that is absent is null. -/
def limitText : Option UInt64 → List Char
  | none => wordOfNull
  | some n => decimal n.toNat

def executionEntries : List (Entry ExecutionConfig) :=
  [{ key := "max_steps"
     Writes c v := v = limitText c.maxSteps
     IsDefault c := c.maxSteps = none },
   { key := "strict_registers"
     Writes c v := v = wordOfBool c.strictRegisters
     IsDefault c := c.strictRegisters = false },
   { key := "trace_instructions"
     Writes c v := v = wordOfBool c.traceInstructions
     IsDefault c := c.traceInstructions = false }]

/-- The two sections. One that is left out is all as it is by default. -/
def entries : List (Entry Config) :=
  [{ key := "memory"
     Writes c v := RecordText memoryEntries c.memory v
     IsDefault c := c.memory = ⟨65536, 65280⟩ },
   { key := "execution"
     Writes c v := RecordText executionEntries c.execution v
     IsDefault c := c.execution = ⟨none, false, false⟩ }]

/-- The text writes the settings. -/
inductive Writes (c : Config) (text : String) : Prop
  | mk {object : List Char} (record : RecordText entries c object)
    (padded : Padded object text.toList) : Writes c text

/-! ### Reading them back -/

/-- The settings of which those in `seen` have been read. -/
def memoryPatch (c : MemoryConfig) (seen : List String) : MemoryConfig where
  size := if "size" ∈ seen then c.size else 65536
  outputPort := if "output_port" ∈ seen then c.outputPort else 65280

lemma reads_memory {c : MemoryConfig} (hsize : c.size < UInt64.size) :
    memoryShape.Reads memoryEntries c (memoryPatch c) where
  field := by
    have hport := c.outputPort.toNat_lt
    refine List.forall_mem_cons.2 ⟨?_, List.forall_mem_singleton.2 ?_⟩
    · refine ⟨_, List.mem_cons_self, rfl, ?_⟩
      rintro v blanks rest rfl hblank hends seen
      have hread := readNatural_decimal hblank hends "usize" hsize (Nat.le_refl _)
      simp only [sizeField, hread]
      simp [Except.map, memoryPatch]
    · refine ⟨_, List.mem_cons_of_mem _ List.mem_cons_self, rfl, ?_⟩
      rintro v blanks rest rfl hblank hends seen
      have hread := readNatural_decimal hblank hends "u32" hport (by decide)
      simp only [outputPortField, hread]
      simp [Except.map, memoryPatch]
  entry := by simp [memoryEntries, memoryShape, sizeField, outputPortField]
  complete := by
    intro seen hseen
    obtain ⟨size, port⟩ := c
    simp only [memoryEntries, List.forall_mem_cons] at hseen
    obtain ⟨h1, h2, -⟩ := hseen
    simp only [memoryPatch]
    congr 1 <;> split <;> simp_all

/-- The settings of which those in `seen` have been read. -/
def executionPatch (c : ExecutionConfig) (seen : List String) : ExecutionConfig where
  maxSteps := if "max_steps" ∈ seen then c.maxSteps else none
  strictRegisters := if "strict_registers" ∈ seen then c.strictRegisters else false
  traceInstructions := if "trace_instructions" ∈ seen then c.traceInstructions else false

lemma readOptional_limit {blanks rest : List Char} (hblank : Blank blanks) (hends : Ends rest)
    (limit : Option UInt64) :
    readOptional (readNatural "u64" UInt64.size) (blanks ++ (limitText limit ++ rest)) =
      .ok (limit.map UInt64.toNat, rest) := by
  rcases limit with _ | n
  · exact readOptional_null hblank _ rest
  · exact readOptional_decimal hblank hends "u64" n.toNat_lt (Nat.le_refl _)

lemma reads_execution (c : ExecutionConfig) :
    executionShape.Reads executionEntries c (executionPatch c) where
  field := by
    refine List.forall_mem_cons.2 ⟨?_, List.forall_mem_cons.2 ⟨?_, List.forall_mem_singleton.2 ?_⟩⟩
    · refine ⟨_, List.mem_cons_self, rfl, ?_⟩
      rintro v blanks rest rfl hblank hends seen
      have hlimit : (c.maxSteps.map UInt64.toNat).map UInt64.ofNat = c.maxSteps := by
        rcases c.maxSteps <;> simp
      simp only [maxStepsField, readOptional_limit hblank hends, Except.map, hlimit]
      simp [executionPatch]
    · refine ⟨_, List.mem_cons_of_mem _ List.mem_cons_self, rfl, ?_⟩
      rintro v blanks rest rfl hblank hends seen
      simp only [strictField, readBoolean_word hblank]
      simp [Except.map, executionPatch]
    · refine ⟨_, List.mem_cons_of_mem _ (List.mem_cons_of_mem _ List.mem_cons_self), rfl, ?_⟩
      rintro v blanks rest rfl hblank hends seen
      simp only [traceField, readBoolean_word hblank]
      simp [Except.map, executionPatch]
  entry := by simp [executionEntries, executionShape, maxStepsField, strictField, traceField]
  complete := by
    intro seen hseen
    obtain ⟨limit, strict, trace⟩ := c
    simp only [executionEntries, List.forall_mem_cons] at hseen
    obtain ⟨h1, h2, h3, -⟩ := hseen
    simp only [executionPatch]
    congr 1 <;> split <;> simp_all

/-- The settings of which the sections in `seen` have been read. -/
def patch (c : Config) (seen : List String) : Config where
  memory := if "memory" ∈ seen then c.memory else ⟨65536, 65280⟩
  execution := if "execution" ∈ seen then c.execution else ⟨none, false, false⟩

/-- A section is read over the defaults. -/
lemma reads_sections {c : Config} (hsize : c.memory.size < UInt64.size) :
    shape.Reads entries c (patch c) where
  field := by
    refine List.forall_mem_cons.2 ⟨?_, List.forall_mem_singleton.2 ?_⟩
    · refine ⟨_, List.mem_cons_self, rfl, ?_⟩
      intro v blanks rest hv hblank _ seen
      have hread := Shape.read_recordText (reads_memory hsize) hv hblank rest
      have hdefault : memoryPatch c.memory [] = {} := rfl
      rw [hdefault] at hread
      simp only [memoryField, hread]
      simp [Except.map, patch]
    · refine ⟨_, List.mem_cons_of_mem _ List.mem_cons_self, rfl, ?_⟩
      intro v blanks rest hv hblank _ seen
      have hread := Shape.read_recordText (reads_execution c.execution) hv hblank rest
      have hdefault : executionPatch c.execution [] = {} := rfl
      rw [hdefault] at hread
      simp only [executionField, hread]
      simp [Except.map, patch]
  entry := by simp [entries, shape, memoryField, executionField]
  complete := by
    intro seen hseen
    obtain ⟨memory, execution⟩ := c
    simp only [entries, List.forall_mem_cons] at hseen
    obtain ⟨h1, h2, -⟩ := hseen
    simp only [patch]
    congr 1 <;> split <;> simp_all

/-- **Settings are read from every text that writes them.** -/
theorem readWhole_of_writes {c : Config} (hsize : c.memory.size < UInt64.size) {text : String}
    (h : c.Writes text) : readWhole text.toList = .ok c := by
  obtain ⟨hrecord, hpadded⟩ := h
  generalize text.toList = chars at hpadded
  obtain ⟨front, back, hfront, hback⟩ := hpadded
  have hread := Shape.read_recordText (reads_sections hsize) hrecord hfront back
  have hdefault : patch c [] = {} := rfl
  have hend : skipBlanks back = [] := by
    have := skipBlanks_append hback []
    rwa [List.append_nil, skipBlanks_nil] at this
  rw [hdefault] at hread
  simp only [readWhole, hread, hend, bind, Except.bind]

/-! ### A text for all settings -/

def memoryMembers (c : MemoryConfig) : List (String × List Char) :=
  [("size", decimal c.size), ("output_port", decimal c.outputPort.toNat)]

def executionMembers (c : ExecutionConfig) : List (String × List Char) :=
  [("max_steps", limitText c.maxSteps), ("strict_registers", wordOfBool c.strictRegisters),
    ("trace_instructions", wordOfBool c.traceInstructions)]

def members (c : Config) : List (String × List Char) :=
  [("memory", objectOf (memoryMembers c.memory)),
    ("execution", objectOf (executionMembers c.execution))]

/-- Settings with all that they say. -/
def text (c : Config) : String := String.ofList (objectOf c.members)

lemma recordText_memory (c : MemoryConfig) :
    RecordText memoryEntries c (objectOf (memoryMembers c)) := by
  refine ⟨objectText_objectOf _, ⟨?_, ?_, ?_, ?_⟩, ?_⟩
  · simp only [memoryMembers, List.forall_mem_cons]
    decide
  all_goals simp [memoryEntries, memoryMembers]

lemma recordText_execution (c : ExecutionConfig) :
    RecordText executionEntries c (objectOf (executionMembers c)) := by
  refine ⟨objectText_objectOf _, ⟨?_, ?_, ?_, ?_⟩, ?_⟩
  · simp only [executionMembers, List.forall_mem_cons]
    decide
  all_goals simp [executionEntries, executionMembers]

/-- **All settings can be written.** -/
theorem writes_text (c : Config) : c.Writes c.text := by
  refine ⟨⟨objectText_objectOf c.members, ⟨?_, ?_, ?_, ?_⟩, ?_⟩, ?_⟩
  · simp only [members, List.forall_mem_cons]
    decide
  · simp [entries, members, recordText_memory, recordText_execution]
  · simp [entries, members]
  · simp [entries, members]
  · simp [entries, members]
  · rw [text, String.toList_ofList]
    exact padded_self _

/-! ### Texts and settings -/

/-- **Texts and settings correspond.** A text that is accepted gives a memory of at least one byte
and of at most 16 MiB, with the port in it. Conversely, all such settings are read from every text
that writes them: an object with its sections and their parts in any order, each at most once, with
any white space, whatever is as it is by default left out or not, and among any other keys. -/
theorem settings_correspond :
    (∀ text c, ofText text = .ok c → 1 ≤ c.memory.size ∧ c.memory.size ≤ 16777216 ∧
      c.memory.outputPort.toNat < c.memory.size) ∧
    ∀ c : Config, 1 ≤ c.memory.size → c.memory.size ≤ 16777216 →
      c.memory.outputPort.toNat < c.memory.size →
      ∀ text, c.Writes text → ofText text = .ok c := by
  refine ⟨fun text c h => ?_, fun c hpos hle hport text hwrites => ?_⟩
  · obtain ⟨-, hvalid⟩ := ofText_eq_ok_iff.1 h
    exact ⟨hvalid.size_pos, hvalid.size_le, hvalid.port_lt⟩
  · have hsize : c.memory.size < UInt64.size := Nat.lt_of_le_of_lt hle (by decide)
    exact ofText_eq_ok_iff.2 ⟨readWhole_of_writes hsize hwrites, hpos, hle, hport⟩

/-- Settings with the greatest limit, and all else of the second section as it is by default. -/
def unusual : Config :=
  { memory := ⟨16, 3⟩, execution := { maxSteps := some 18446744073709551615 } }

def unusualMemory : List Char :=
  objectOf [("unit", '-' :: decimal 1), ("output_port", decimal 3), ("size", decimal 16)]

def unusualExecution : List Char := objectOf [("max_steps", decimal 18446744073709551615)]

def unusualObject : List Char :=
  '{' :: (quoted "note" ++ ':' :: (quoted "x y" ++ [' ']) ++ ',' :: quoted "execution" ++
    [':', ' '] ++ unusualExecution ++ [',', '\n'] ++ quoted "memory" ++
    ':' :: unusualMemory ++ ['}'])

def unusualText : String :=
  " \x7b\"note\":\"x y\" ,\"execution\": \x7b\"max_steps\":18446744073709551615\x7d,\n" ++
    "\"memory\":\x7b\"unit\":-1,\"output_port\":3,\"size\":16\x7d\x7d "

lemma recordText_unusualMemory : RecordText memoryEntries unusual.memory unusualMemory := by
  refine ⟨objectText_objectOf _, ⟨by decide, ?_, ?_, ?_⟩, ?_⟩
  · simp [memoryEntries, unusual]
  · simp [memoryEntries, IsSimple.negative]
  · simp [memoryEntries]
  · simp [memoryEntries]

lemma recordText_unusualExecution :
    RecordText executionEntries unusual.execution unusualExecution := by
  refine ⟨objectText_objectOf _, ⟨by decide, ?_, ?_, ?_⟩, ?_⟩
  · simp [executionEntries, unusual, limitText]
  · simp [executionEntries]
  · simp [executionEntries]
  · simp [executionEntries, unusual]

lemma recordText_unusualObject : RecordText entries unusual unusualObject := by
  have hmembers : MembersText [("note", quoted "x y"), ("execution", unusualExecution),
      ("memory", unusualMemory)] _ :=
    .cons (padded_self _) (.mk [] [' '] blank_nil (by decide))
      (.cons (padded_self _) (.mk [' '] [] (by decide) blank_nil)
        (.last (.mk ['\n'] [] (by decide) blank_nil) (padded_self _)))
  refine ⟨.members hmembers, ⟨by decide, ?_, ?_, ?_⟩, ?_⟩
  · simp [entries, recordText_unusualMemory, recordText_unusualExecution]
  · simpa [entries] using IsSimple.text (s := "x y") (by decide)
  · simp [entries]
  · simp [entries]

lemma writes_unusualText : unusual.Writes unusualText := by
  have htext : unusualText.toList = [' '] ++ (unusualObject ++ [' ']) := by decide +kernel
  refine ⟨recordText_unusualObject, ?_⟩
  rw [htext]
  exact .mk [' '] [' '] (by decide) (by decide)

/-- The parts stand in another order, some are left out, and there are keys of other names. -/
theorem settings_correspond_unusual :
    unusual.Writes unusualText ∧ 1 ≤ unusual.memory.size ∧ unusual.memory.size ≤ 16777216 ∧
      unusual.memory.outputPort.toNat < unusual.memory.size ∧
      ofText unusualText = .ok unusual := by
  have hpos : 1 ≤ unusual.memory.size := by decide
  have hle : unusual.memory.size ≤ 16777216 := by decide
  have hport : unusual.memory.outputPort.toNat < unusual.memory.size := by decide
  exact ⟨writes_unusualText, hpos, hle, hport,
    settings_correspond.2 unusual hpos hle hport unusualText writes_unusualText⟩

end Config

end ByteMachine
