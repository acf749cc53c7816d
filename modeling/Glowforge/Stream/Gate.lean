import Glowforge.Stream.Tick

/-!
# Glowforge — the fire gate

The shipper samples the fire gate once, at the beginning of a pass, and masks every tick of
the pass with the sample. Between two chunks the pass releases `gf.lock` and can sit in the
write's back-off, so the sample can be older than the gate:

* **`ShipPc.gateHeld`** — the pass under way has sampled an open gate.
* **`gate_masks`** — in every run in which the gate never closes under such a pass, a tick
  built while the gate is closed is dark.
* **`closed_gate_ships_lit`** — a gate that closes under the first chunk's write does not mask
  the second chunk.
-/

namespace Glowforge.Stream

/-- The pass under way holds the sample of an open gate. -/
def ShipPc.gateHeld : ShipPc → Bool
  | .sampled gate => gate
  | .writing p _ _ | .wrote p _ _ => p.gate
  | _ => false

theorem ShipPc.inPass_of_gateHeld {pc : ShipPc} (h : pc.gateHeld = true) : pc.inPass = true := by
  cases pc <;> first | rfl | cases h

/-- A step of the shipper holds an open sample only if it held one before, or the gate is
open. -/
theorem shipStep_gateHeld (e : Env) (s : State) (h : (shipStep e s).pc.gateHeld = true) :
    s.pc.gateHeld = true ∨ s.fireGate = true := by
  have hmove := shipStep_pass e s (ShipPc.inPass_of_gateHeld h)
  generalize (shipStep e s).pc = pc at h hmove
  cases hmove with
  | sample hpc hok => exact .inr h
  | round hround =>
    left
    cases hround with
    | first hpc => rwa [hpc]
    | next hpc hok => rwa [hpc]
  | byte hpc =>
    left
    rwa [hpc]
  | wrote hpc =>
    left
    rwa [hpc]

/-- No gate closes while a pass holds the sample of an open one. -/
def closesIdle (s : State) : Label → Bool
  | .fireGate false => !s.pc.gateHeld
  | _ => true

/-- The invariant: a closed gate is what every pass under way has sampled. -/
def GateInv (s : State) : Prop := s.fireGate = false → s.pc.gateHeld = false

theorem step_gate {s t : State} {l : Label} (h : GateInv s) (hok : closesIdle s l = true)
    (hstep : step s l = some t) : GateInv t := by
  obtain ⟨-, hturn⟩ := step_eq_some.mp hstep
  intro hclosed
  by_cases hship : ∃ e, l = .ship e
  · obtain ⟨e, rfl⟩ := hship
    cases hturn
    rw [show (shipStep e s).fireGate = s.fireGate from
      congrArg Quiet.fireGate (shipStep_quiet e s)] at hclosed
    rw [← Bool.not_eq_true]
    intro hheld
    rcases shipStep_gateHeld e s hheld with hpc | hopen
    · rw [h hclosed] at hpc
      cases hpc
    · rw [hclosed] at hopen
      cases hopen
  · have hturned := turn_turned hturn fun e he => hship ⟨e, he⟩
    rw [hturned.pc]
    rw [hturned.fireGate] at hclosed
    cases l with
    | fireGate gate =>
      rw [show gate = false from hclosed] at hok
      simpa [closesIdle] using hok
    | _ => exact h hclosed

/-- A round fires only under an open sample. -/
theorem buildTicks_masked (due : Nat) (streaming : Bool) (fuel : Nat) (g : Gf) :
    ∀ b ∈ (buildTicks false due streaming fuel g []).2.filter isTick, lit b = false := by
  refine buildTicks_induct false due streaming
    (P := fun _ chunk => ∀ b ∈ chunk.filter isTick, lit b = false) ?_ fuel g []
    (fun _ h => absurd h List.not_mem_nil)
  intro g chunk hchunk _ b hb
  obtain ⟨power, fires, hbytes, hpower, -, hfires⟩ := shipTick_bytes false g
  rw [hbytes, List.filter_append, List.filter_append, List.mem_append, List.mem_append] at hb
  rcases hb with hb | hb | hb
  · exact hchunk b hb
  · obtain ⟨hmem, htick⟩ := List.mem_filter.mp hb
    rw [hpower b hmem] at htick
    cases htick
  · rw [List.mem_singleton.mp (List.mem_of_mem_filter hb), lit_shippedByte]
    rw [← Bool.not_eq_true]
    intro hf
    cases (hfires hf).1

/-- **The gate masks every tick** built while it is closed, in every run in which it never
closes under a pass that has sampled it open. -/
theorem gate_masks {c : Config} {k : Kernel} {emptied counted : Bool} {s t : State} {e : Env}
    (hrun : Runs.Reach step (fun s l => closesIdle s l = true)
      (State.init c k emptied counted) s)
    (hclosed : s.fireGate = false) (hstep : step s (.ship e) = some t) :
    ∀ b ∈ newTicks s t, lit b = false := by
  have hinv : GateInv s := hrun.invariant (fun _ => rfl) fun s l u hs hok hu => step_gate hs hok hu
  obtain ⟨-, hturn⟩ := step_eq_some.mp hstep
  cases hturn
  rcases shipStep_round e s with ⟨p, u, hround, heq⟩ | ⟨pad, hpad, hdump⟩
  · have hgate : p.gate = false := by
      have hheld := hinv hclosed
      cases hround with
      | first hpc => rwa [hpc] at hheld
      | next hpc hok => rwa [hpc] at hheld
    rw [heq]
    intro b hb
    rcases newTicks_shipLoop hround with hnil | hticks
    · rw [hnil] at hb
      cases hb
    · rw [hticks, hgate] at hb
      exact buildTicks_masked _ _ _ _ b hb
  · exact newTicks_pad hpad hdump

/-- A stream whose fire state is on from its base on, shipped up to the base; the next pass
comes 300 ms later, with two chunks due, and its first chunk is being written. -/
def litPass : List Label :=
  [.laserArm true, .fireGate true, .enter .wakeup, .locked .wakeup 0,
    .enter (.laser 127 true), .locked (.laser 127 true) 0] ++
  List.replicate 9 (Label.ship {}) ++ [Label.ship { later := 300000000 }]

/-- The theorem where the gate closes between two passes: the pass that follows ships dark. -/
theorem gate_masks_between_passes :
    ∃ s t, s.fireGate = false ∧ newTicks s t ≠ [] ∧ ∀ b ∈ newTicks s t, lit b = false := by
  have hrun : ∃ s, Runs.Reach step (fun s l => closesIdle s l = true)
        (State.init (slowConfig false) idleKernel true true) s ∧
      (s.fireGate = false ∧ (step s (.ship { later := 3000000 })).any
        (fun t => decide (newTicks s t ≠ [])) = true) :=
    Runs.exists_reach_of_exec
      (litPass.take 13 ++ [Label.fireGate false, .ship {}, .ship {}]) (by decide +kernel)
  obtain ⟨s, hreach, hclosed, hnext⟩ := hrun
  obtain ⟨t, hstep, hticks⟩ := (Option.any_eq_true _ _).mp hnext
  exact ⟨s, t, hclosed, of_decide_eq_true hticks, gate_masks hreach hclosed hstep⟩

/-- **A closed gate can ship lit ticks.** The gate closes while the first chunk of a pass is
written, and the second chunk is built under the sample of the open gate. -/
theorem closed_gate_ships_lit :
    ∃ s t e, Runs.Reach step (fun _ _ => True) (State.init (slowConfig false) idleKernel true true) s ∧
      s.fireGate = false ∧ step s (.ship e) = some t ∧ ∃ b ∈ newTicks s t, lit b = true := by
  have hrun : ∃ s, Runs.Reach step (fun _ _ => True)
        (State.init (slowConfig false) idleKernel true true) s ∧
      (s.fireGate = false ∧ (step s (.ship {})).any
        (fun t => decide (∃ b ∈ newTicks s t, lit b = true)) = true) :=
    Runs.exists_reach_of_exec (litPass ++ [Label.fireGate false, .ship {}]) (by decide +kernel)
  obtain ⟨s, hreach, hclosed, hnext⟩ := hrun
  obtain ⟨t, hstep, hlit⟩ := (Option.any_eq_true _ _).mp hnext
  exact ⟨s, t, {}, hreach, hclosed, hstep, of_decide_eq_true hlit⟩

end Glowforge.Stream
