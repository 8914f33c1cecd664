import LogRelay.Proofs.Writing
import LogRelay.Termination

/-!
# Recording a fatal error

The first fatal error counts, whatever comes of recording it.  Refused calls are only noted; what
can break the recording off is a record that cannot be named or encoded, and a diagnostic command
that fails in another way than the system refusing it or its taking too long (`BreaksOff`).
-/

namespace LogRelay

theorem Runner.next_mem {r : Runner} : r.next.1 = .output none ∨ r.next.1 ∈ r := by
  unfold next
  split
  · exact .inl rfl
  · exact .inr List.mem_cons_self
  · exact .inr List.mem_cons_self

theorem Runner.next_subset (r : Runner) : r.next.2 ⊆ r := by
  unfold next
  split
  · exact List.Subset.refl _
  · exact List.Subset.refl _
  · exact List.subset_cons_self _ _

namespace Terminator

variable {α β : Type} {results : Runner} {cause : Failure → Prop}

/-- What breaks off the recording of a message, with some results of commands to come. -/
inductive BreaksOff (t : Terminator) (message : Text) (results : Runner) : Failure → Prop
  | path {why : Unnameable} (h : unnameable? t.paths.terminationLog.text = some why) :
      t.BreaksOff message results why.failure
  | text {e : Utf8.EncodeError} (h : Utf8.encode message = .error e) :
      t.BreaksOff message results (.unencodable e)
  | command {f : Failure} (debug : t.debug = true)
      (h : .failed f ∈ results) : t.BreaksOff message results f

variable {scene : Scene}

/-- Begun with no other results to come, the act is done, or broken off by one of the causes. -/
def Only (results : Runner) (cause : Failure → Prop) (act : Act α) (scene : Scene) : Prop :=
  scene.runner ⊆ results →
    match act scene with
    | .ok _ after => after.runner ⊆ results
    | .error f _ => cause f

theorem only_pure (a : α) : Only results cause (pure a) scene := fun h => h

theorem Only.bind {act : Act β} {k : β → Act α} (h : Only results cause act scene)
    (hk : ∀ b scene', Only results cause (k b) scene') : Only results cause (act >>= k) scene := by
  intro hs
  have hact := h hs
  show match EStateM.bind act k scene with
    | .ok _ after => after.runner ⊆ results
    | .error f _ => cause f
  unfold EStateM.bind
  cases hresult : act scene with
  | ok b after =>
    rw [hresult] at hact
    exact hk b after hact
  | error f after =>
    rw [hresult] at hact
    exact hact

/-- An act that begins with a look at the scene is judged by what it sees. -/
theorem only_get_bind {k : Scene → Act α} (h : Only results cause (k scene) scene) :
    Only results cause (get >>= k) scene := h

theorem only_notify (n : Notice) : Only results cause (notify n) scene := fun h => h

theorem only_writeRecord {path : Path} {t : Text}
    (hpath : ∀ why, unnameable? path.text = some why → cause why.failure)
    (htext : ∀ e, Utf8.encode t = .error e → cause (.unencodable e)) :
    Only results cause (writeRecord path t) scene := by
  have hfailure : ∀ f, (scene.disk.putText path.text t recordMode).2 = some f → _ :=
    fun f => Disk.putText_failure
  refine only_get_bind ?_
  generalize scene.disk.putText path.text t recordMode = written at hfailure
  obtain ⟨disk, failure⟩ := written
  intro hs
  cases failure with
  | none => exact hs
  | some f =>
    obtain ⟨e, rfl⟩ | ⟨why, hwhy, rfl⟩ | ⟨e, he, rfl⟩ := hfailure f rfl
    · exact hs
    · cases why with
      | embeddedNul => exact hpath _ hwhy
      | surrogates e => exact hpath _ hwhy
    · exact htext e he

theorem only_capture {command : Command} (h : ∀ f, .failed f ∈ results → cause f) :
    Only results cause (capture command) scene := by
  have hnext := @Runner.next_mem scene.runner
  have hsubset := Runner.next_subset scene.runner
  refine only_get_bind ?_
  generalize Runner.next scene.runner = next at hnext hsubset
  obtain ⟨result, runner⟩ := next
  intro hs
  cases result with
  | output bytes => exact List.Subset.trans hsubset hs
  | refused e => exact List.Subset.trans hsubset hs
  | timedOut seconds => exact List.Subset.trans hsubset hs
  | broken error => exact List.Subset.trans hsubset hs
  | failed f => exact h f (hs (hnext.resolve_left nofun))

theorem only_diagnose {title : Text} {command : Command} (h : ∀ f, .failed f ∈ results → cause f) :
    Only results cause (diagnose title command) scene :=
  (only_capture h).bind fun _ _ => only_notify _

theorem only_diagnoseAll {commands : List (Text × Command)}
    (h : ∀ f, .failed f ∈ results → cause f) : Only results cause (diagnoseAll commands) scene := by
  induction commands generalizing scene with
  | nil => exact only_pure _
  | cons entry commands ih => exact (only_diagnose h).bind fun _ _ => ih

theorem only_diagnostics {t : Terminator}
    (h : t.debug = true → ∀ f, .failed f ∈ results → cause f) :
    Only results cause t.diagnostics scene := by
  unfold diagnostics
  split
  · next hdebug =>
    exact (only_notify _).bind fun _ _ => (only_diagnoseAll (h hdebug)).bind
      fun _ _ => only_notify _
  · exact only_pure _

theorem only_record (t : Terminator) (message : Text) :
    Only results (t.BreaksOff message results) (t.record message) scene := by
  refine (only_notify _).bind fun _ _ => Only.bind ?_ fun _ _ => (only_notify _).bind fun _ _ => ?_
  · exact only_writeRecord (fun _ h => .path h) fun _ h => .text h
  · exact only_diagnostics fun hdebug f hf => .command hdebug hf

/-- The first fatal error counts.  It is recorded, or what is done about it is broken off by a
cause. -/
theorem terminate_spec {t : Terminator} (h : t.message? = none) (message : Text) (scene : Scene) :
    (t.terminate message).1.message? = some message ∧
      match (t.terminate message).2 scene with
      | .ok _ _ => True
      | .error f _ => t.BreaksOff message scene.runner f := by
  have honly : Only scene.runner (t.BreaksOff message scene.runner) (t.record message) scene :=
    only_record t message
  have hdone := honly (List.Subset.refl _)
  unfold terminate
  rw [h]
  refine ⟨rfl, ?_⟩
  dsimp only
  split
  · trivial
  · next f after hresult =>
    rw [hresult] at hdone
    exact hdone

end Terminator

end LogRelay
