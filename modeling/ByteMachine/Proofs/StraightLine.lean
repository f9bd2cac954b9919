import Mathlib.Tactic.FinCases
import ByteMachine.Proofs.Contents
import ByteMachine.Proofs.Listing
import ByteMachine.Proofs.Trail

/-!
Running what is listed. A lenient machine whose code does not store into what is still to come
executes the listing line by line, though memory changes on the way.
-/

namespace ByteMachine

open Located Machine

/-- The machine does what the lines say, one after the other, and then stops. -/
inductive Follows : Machine → List Located → Prop
  | out {m : Machine} : m.Refuses (.pcOutOfBounds m.pc) → m.memory.size ≤ m.pc.toNat →
      Follows m []
  | fault {m : Machine} {f : Fault} : m.Refuses f → Follows m [⟨m.pc, .error f⟩]
  | halt {m : Machine} : m.Passes .halt → Follows m [⟨m.pc, .ok .halt⟩]
  | pass {m : Machine} {i : Instruction} {rest : List Located} : m.Passes i → i ≠ .halt →
      Follows m.step.1 rest → Follows m (⟨m.pc, .ok i⟩ :: rest)

/-! ### Code that spares itself is followed -/

lemma Machine.Passes.getElem?_step {m : Machine} {i : Instruction} (h : m.Passes i) (k : Nat)
    (hk : ∀ source target, i = .store source target → Registers.IsValid source →
      target.toNat ≠ k) :
    m.step.1.memory.bytes[k]? = m.memory.bytes[k]? := by
  have hsize : m.step.1.memory.bytes.size = m.memory.bytes.size := size_step m
  by_cases hlt : k < m.memory.bytes.size
  · have hto : (UInt32.ofNat k).toNat = k := Memory.toNat_ofNat_of_le (Nat.le_of_lt hlt)
    have hread := Contents.read?_apply m.outputPort (m.contents []) i (.ofNat k)
      fun source target hi hv he => hk source target hi hv (by
        rw [← hto, ← he, UInt16.toNat_toUInt32])
    rw [h.apply_contents, Memory.read?, Memory.read?, hto] at hread
    exact hread
  · rw [Array.getElem?_eq_none (by omega), Array.getElem?_eq_none (by omega)]

lemma Machine.refuses_out {m : Machine} (h : ¬ m.state.IsTerminal)
    (hpc : m.memory.size ≤ m.pc.toNat) : m.Refuses (.pcOutOfBounds m.pc) := by
  refine ⟨h, Or.inl ?_⟩
  unfold decode
  rw [Array.getElem?_eq_none hpc]

lemma decode_of_agree {bytes bytes' : Array UInt8} {x : Located} (hsize : bytes'.size = bytes.size)
    (hd : decode bytes x.addr = x.content)
    (h : ∀ k, x.addr.toNat ≤ k → k < x.stop → bytes'[k]? = bytes[k]?) :
    decode bytes' x.addr = x.content := by
  rw [← hd]
  refine decode_congr hsize fun k hk hlt => h k hk ?_
  rwa [hd] at hlt

/-- **Code that spares itself is followed.** What stands ahead in memory is what was listed: the
stores made so far have left the lines to come alone. -/
theorem follows_of_lists {bytes : Array UInt8} {stop a : Address} {code : List Located}
    (hstop : stop.toNat = bytes.size) (hl : Lists bytes stop a code) :
    ∀ m : Machine, ¬ m.state.IsTerminal → m.strict = false → m.pc = a →
      m.memory.bytes.size = bytes.size → code.Pairwise Spares →
      (∀ x ∈ code, ∀ k, x.addr.toNat ≤ k → k < x.stop → m.memory.bytes[k]? = bytes[k]?) →
      Follows m code := by
  induction hl with
  | out hle =>
    rintro m hm - rfl hsize - -
    have hpc : m.memory.size ≤ m.pc.toNat := by
      rw [Memory.size, hsize, ← hstop]
      exact UInt32.le_iff_toNat_le.1 hle
    exact .out (refuses_out hm hpc) hpc
  | @fault a f _ hd =>
    rintro m hm - rfl hsize - hag
    exact .fault ⟨hm, Or.inl (decode_of_agree hsize hd (hag _ (List.mem_singleton_self _)))⟩
  | halt _ hd =>
    rintro m hm hs rfl hsize - hag
    have hd' := decode_of_agree hsize hd (hag _ (List.mem_singleton_self _))
    exact .halt ⟨hm, hd', fun h => absurd (hs.symm.trans h) nofun⟩
  | @pass a i rest _ hd hi _ ih =>
    rintro m hm hs rfl hsize hsp hag
    have hd' := decode_of_agree hsize hd (hag _ List.mem_cons_self)
    have hp : m.Passes i := ⟨hm, hd', fun h => absurd (hs.symm.trans h) nofun⟩
    obtain ⟨hfirst, hrest⟩ := List.pairwise_cons.1 hsp
    refine .pass hp hi (ih m.step.1 ?_ ?_ ?_ ?_ hrest ?_)
    · rw [hp.state, if_neg hi]
      exact nofun
    · rw [strict_step, hs]
    · apply UInt32.toNat_inj.1
      have hlt : bytes.size < 0x100000000 := hsize ▸ m.memory.size_lt
      rw [hp.pc_toNat, Lists.toNat_advance_of_decode hlt hd]
    · exact (size_step m).trans hsize
    · intro y hy k hk hlt
      rw [← hag y (List.mem_cons_of_mem _ hy) k hk hlt]
      refine hp.getElem?_step k fun source target he hv hne => ?_
      subst he hne
      exact hfirst y hy source target rfl hv ⟨hk, hlt⟩

/-! ### What follows from following -/

/-- How code that ends with this line stops a machine, if it does. -/
def Located.stop? (x : Located) : Option Stop :=
  match x.content with
  | .ok .halt => some .halted
  | .ok _ => none
  | .error f => some (.faulted f)

def ending? (code : List Located) : Option Stop := code.getLast?.bind Located.stop?

lemma ending?_cons {a : Address} {i : Instruction} (hi : i ≠ .halt) (rest : List Located) :
    ending? (⟨a, .ok i⟩ :: rest) = ending? rest := by
  rcases rest with _ | ⟨y, rest⟩
  · cases i with
    | halt => exact absurd rfl hi
    | _ => rfl
  · rw [ending?, ending?, List.getLast?_cons_cons]

namespace Follows

variable {m : Machine} {code : List Located}

lemma stop_refuses {f : Fault} (h : m.Refuses f) :
    m.step.1.state.stop? = some (.faulted f) := by
  rw [h.state]
  rfl

lemma stop_halt (h : m.Passes .halt) : m.step.1.state.stop? = some .halted := by
  rw [h.state]
  rfl

lemma stop_pass {i : Instruction} (h : m.Passes i) (hi : i ≠ .halt) :
    m.step.1.state.stop? = none := by
  rw [h.state, if_neg hi]
  rfl

lemma retired_eq (h : Follows m code) : m.retired none = code.filterMap instruction? := by
  induction h with
  | out hr _ => rw [retired_none_stopped (stop_refuses hr), hr.retiring?]; rfl
  | fault hr => rw [retired_none_stopped (stop_refuses hr), hr.retiring?]; rfl
  | halt hp => rw [retired_none_stopped (stop_halt hp), hp.retiring?]; rfl
  | pass hp hi _ ih => rw [retired_none_running (stop_pass hp hi), hp.retiring?, ih]; rfl

/-- The run ends as the last line says, and past the end of memory if it says nothing. -/
lemma outcome_eq (h : Follows m code) :
    (∀ s, ending? code = some s → (m.run none).outcome = .stopped s) ∧
      (ending? code = none →
        (m.run none).outcome = .stopped (.faulted (.pcOutOfBounds (m.run none).machine.pc)) ∧
        (m.run none).machine.pc.toNat = max m.pc.toNat m.memory.size) := by
  induction h with
  | @out m hr hpc =>
    obtain ⟨hmachine, hout, -⟩ := run_none_stopped (stop_refuses hr)
    have hstay : m.step.1.pc = m.pc := by rw [hr.step_fst]; exact pc_begun
    refine ⟨nofun, fun _ => ?_⟩
    rw [hmachine, hout, hstay]
    exact ⟨rfl, (Nat.max_eq_left hpc).symm⟩
  | @fault m f hr =>
    refine ⟨?_, nofun⟩
    rintro s ⟨⟩
    exact (run_none_stopped (stop_refuses hr)).2.1
  | halt hp =>
    refine ⟨?_, nofun⟩
    rintro s ⟨⟩
    exact (run_none_stopped (stop_halt hp)).2.1
  | @pass m i rest hp hi _ ih =>
    obtain ⟨hmachine, hout, -⟩ := run_none_running (stop_pass hp hi)
    have hle := add_size_le_of_decode hp.decoded
    rw [ending?_cons hi, hmachine, hout]
    refine ⟨ih.1, fun hnone => ⟨(ih.2 hnone).1, ?_⟩⟩
    rw [(ih.2 hnone).2, hp.pc_toNat, size_step, Memory.size]
    omega

/-- The run leaves what folding the instructions leaves. -/
lemma contents_eq (h : Follows m code) : ∀ output,
    (code.filterMap instruction?).foldl (fun c x => c.apply m.outputPort x.2)
        (m.contents output) =
      (m.run none).machine.contents
        (output ++ Effect.emitted (m.run none).effects.toList) := by
  induction h with
  | @out m hr _ =>
    intro output
    obtain ⟨hmachine, -, heff⟩ := run_none_stopped (stop_refuses hr)
    rw [hmachine, heff, hr.contents]
    rfl
  | @fault m f hr =>
    intro output
    obtain ⟨hmachine, -, heff⟩ := run_none_stopped (stop_refuses hr)
    rw [hmachine, heff, hr.contents]
    rfl
  | @halt m hp =>
    intro output
    obtain ⟨hmachine, -, heff⟩ := run_none_stopped (stop_halt hp)
    rw [hmachine, heff, ← hp.apply_contents]
    rfl
  | @pass m i rest hp hi _ ih =>
    intro output
    obtain ⟨hmachine, -, heff⟩ := run_none_running (stop_pass hp hi)
    rw [hmachine, heff, ← List.append_assoc, ← ih, outputPort_step, ← hp.apply_contents]
    rfl

end Follows

/-! ### What runs is what is listed -/

/-- What is listed from the program counter to the end of memory, up to the first halt. -/
def Machine.code (m : Machine) : List Located :=
  codeFrom m.memory.bytes m.pc (UInt32.ofNat m.memory.size)

lemma follows_code {m : Machine} (hm : ¬ m.state.IsTerminal) (hs : m.strict = false)
    (hc : SparesUpTo (endOf m.code) m.code) : Follows m m.code := by
  have hlt := m.memory.size_lt
  have hstop := Memory.toNat_ofNat_of_le (Nat.le_refl m.memory.size)
  have hl := lists_codeFrom m.memory.bytes m.pc (UInt32.ofNat m.memory.size)
  have hsp := pairwise_spares (hl.pairwise_stop_le hlt)
    (stop_le_endOf (hl.pairwise_stop_le hlt)) hc
  exact follows_of_lists hstop hl m hm hs rfl rfl hsp fun _ _ _ _ _ => rfl

/-- **What runs is what is listed.** A lenient machine whose code leaves what comes after a
store alone retires the instructions listed, in order and where they are listed, and ends as
the last line says, or at the end of memory. -/
theorem run_eq_listing {m : Machine} (hm : ¬ m.state.IsTerminal) (hs : m.strict = false)
    (hc : SparesUpTo (endOf m.code) m.code) :
    m.retired none = m.code.filterMap instruction? ∧
      (m.run none).machine.counters.steps =
        m.counters.steps + (m.code.filterMap instruction?).length ∧
      (∀ a, m.code.getLast? = some ⟨a, .ok .halt⟩ →
        (m.run none).outcome = .stopped .halted) ∧
      (∀ a f, m.code.getLast? = some ⟨a, .error f⟩ →
        (m.run none).outcome = .stopped (.faulted f)) ∧
      ((∀ x, m.code.getLast? = some x → ∃ i, i ≠ .halt ∧ x.content = .ok i) →
        (m.run none).outcome = .stopped (.faulted (.pcOutOfBounds (m.run none).machine.pc)) ∧
        (m.run none).machine.pc.toNat = max m.pc.toNat m.memory.size) := by
  have h := follows_code hm hs hc
  obtain ⟨hend, hout⟩ := h.outcome_eq
  refine ⟨h.retired_eq, ?_, fun a hlast => ?_, fun a f hlast => ?_, fun hlast => ?_⟩
  · rw [steps_run, h.retired_eq]
  · exact hend _ (by rw [ending?, hlast]; rfl)
  · exact hend _ (by rw [ending?, hlast]; rfl)
  · refine hout ?_
    rcases hl : m.code.getLast? with _ | x
    · rw [ending?, hl]
      rfl
    · obtain ⟨i, hi, hx⟩ := hlast x hl
      rw [ending?, hl, Option.bind_some, Located.stop?, hx]
      split <;> simp_all

/-- Code that stores over itself behind the program counter, skips an instruction that names
no register, and halts. -/
theorem run_eq_listing_halts :
    let m : Machine := { Machine.ofConfig {} with
      memory := ⟨#[0x11, 0, 1, 0, 0x10, 9, 1, 1, 0x20], by decide⟩ }
    ¬ m.state.IsTerminal ∧ m.strict = false ∧ SparesUpTo (endOf m.code) m.code ∧
      m.retired none = [(0, .store 0 1), (4, .load 9 1), (7, .halt)] ∧
      (m.run none).outcome = .stopped .halted := by
  intro m
  have hm : ¬ m.state.IsTerminal := by decide
  have hcode : m.code =
      [⟨0, .ok (.store 0 1)⟩, ⟨4, .ok (.load 9 1)⟩, ⟨7, .ok .halt⟩] := by
    change codeFrom #[0x11, 0, 1, 0, 0x10, 9, 1, 1, 0x20] 0 9 = _
    cbv
  have hc : SparesUpTo (endOf m.code) m.code := by
    rw [hcode]
    rintro x hx source target hs hv ⟨hle, -⟩
    fin_cases hx
    · cases hs
      exact absurd hle (by decide)
    · cases hs
    · cases hs
  obtain ⟨hret, -, hhalt, -⟩ := run_eq_listing hm rfl hc
  rw [hcode] at hret hhalt
  exact ⟨hm, rfl, hc, hret, hhalt 7 rfl⟩

end ByteMachine
