import InlineCache.Proofs.Emit.Tidy

/-!
The exit paths at the end of the code.  Code that looks for the label of a path finds it there, has the
saved registers restored, and leaves with the status of the path.
-/

namespace InlineCache.ExitPaths

/-- Exits have labels of their own, none below a bound. -/
structure Exits.Sound (exits : Exits) (low high : Label) : Prop where
  given : ∀ exit ∈ exits, low ≤ exit.2 ∧ exit.2 < high
  distinct : (exits.map Prod.snd).Nodup

/-- The code looks for the label of one of the paths of a status, or for that of its exit, and shows
what it has shown when it left. -/
def Seeks (entry : Entry) (origin : Machine) (status : ExitStatus) (left : Machine)
    (paths : ExitPaths) (exits : Exits) (buffer : CodeBuffer) : Prop :=
  ∃ label m, buffer.flow entry origin = .running (some label) m ∧ left.Alike m ∧
    ((∃ path ∈ paths, path.status = status ∧ path.label = label) ∨ (status, label) ∈ exits)

variable {entry : Entry} {origin m left : Machine} {status : ExitStatus} {low : Label} {exits : Exits}
  {buffer : CodeBuffer} {flow : Flow}

/-- The exit of a status is there already, or it is added under a new label. -/
theorem exitOf_spec (status : ExitStatus) (sound : exits.Sound low buffer.labels)
    (least : low ≤ buffer.labels) :
    ∃ label after code, exitOf exits buffer status = (label, after, code) ∧
      after.Sound low code.labels ∧ low ≤ code.labels ∧ (status, label) ∈ after ∧
      (∀ exit ∈ exits, exit ∈ after) ∧ code.insts = buffer.insts := by
  rw [exitOf]
  cases found : exits.find? (·.1 = status) with
  | some exit =>
      obtain ⟨other, label⟩ := exit
      have same := List.find?_some found
      rw [decide_eq_true_eq] at same
      subst same
      exact ⟨label, exits, buffer, rfl, sound, least, List.mem_of_find?_eq_some found,
        fun _ member => member, rfl⟩
  | none =>
      refine ⟨buffer.labels, exits ++ [(status, buffer.labels)], buffer.newLabel.2, rfl, ⟨?_, ?_⟩,
        Nat.le_succ_of_le least, List.mem_append_right _ (.head _),
        fun _ => List.mem_append_left _, rfl⟩
      · intro exit member
        rcases List.mem_append.mp member with before | now
        · exact ⟨(sound.given exit before).1, Nat.lt_succ_of_lt (sound.given exit before).2⟩
        · rw [List.mem_singleton.mp now]
          exact ⟨least, Nat.lt_succ_self _⟩
      · rw [List.map_append, List.nodup_append]
        refine ⟨sound.distinct, List.nodup_cons.mpr ⟨List.not_mem_nil, List.nodup_nil⟩, ?_⟩
        intro first early second late same
        obtain ⟨exit, member, rfl⟩ := List.mem_map.mp early
        have given := (sound.given exit member).2
        rw [List.mem_singleton.mp late] at same
        exact Nat.ne_of_lt given same

/-- Restores the registers that a path saves. -/
def restore (saved : SavedFloats) (buffer : CodeBuffer) : CodeBuffer :=
  saved.foldl (fun buffer (reg, slot) => buffer.emit (.restoreFloat reg slot)) buffer

theorem labels_restore (saved : SavedFloats) (buffer : CodeBuffer) :
    (restore saved buffer).labels = buffer.labels := by
  induction saved generalizing buffer with
  | nil => rfl
  | cons first rest ih => exact ih (buffer.emit (.restoreFloat first.1 first.2))

/-- What is emitted for a path when its status has an exit. -/
theorem emitPath_of_exitOf {path : ExitPath} {exit : Label} {after : Exits} {code : CodeBuffer}
    (asked : exitOf exits buffer path.status = (exit, after, code)) :
    emitPath exits buffer path =
      (after, (restore path.saved.reverse (code.emit (.bind path.label))).emit (.jump exit)) := by
  rw [emitPath, asked]
  rfl

theorem flow_restore (saved : SavedFloats) {pending : Option Label}
    (flow : buffer.flow entry origin = .running pending m) :
    ∃ n, (restore saved buffer).flow entry origin = .running pending n ∧ m.Alike n := by
  induction saved generalizing buffer m with
  | nil => exact ⟨m, flow, .refl m⟩
  | cons first rest ih =>
      cases pending with
      | some label =>
          exact ih (CodeBuffer.flow_emit_skip flow (.restoreFloat first.1 first.2) Inst.noConfusion)
      | none =>
          obtain ⟨n, later, alike⟩ :=
            ih (CodeBuffer.flow_emit_effect flow (.restoreFloat first.1 first.2) rfl)
          exact ⟨n, later, alike.output, alike.context, alike.reads⟩

section

variable {P : CodeBuffer → Prop} (emits : ∀ {code : CodeBuffer} (inst : Inst), P code → P (code.emit inst))
include emits

theorem restore_induct (saved : SavedFloats) (start : P buffer) : P (restore saved buffer) := by
  induction saved generalizing buffer with
  | nil => exact start
  | cons first rest ih => exact ih (emits (.restoreFloat first.1 first.2) start)

theorem emitExits_induct (exits : Exits) (start : P buffer) : P (exits.foldl emitExit buffer) := by
  induction exits generalizing buffer with
  | nil => exact start
  | cons exit rest ih => exact ih (emits _ (emits _ start))

/-- What no instruction and no label changes is so behind the paths and the exits. -/
theorem emit_induct (labels : ∀ {code : CodeBuffer}, P code → P code.newLabel.2) (paths : ExitPaths)
    (start : P buffer) : P (paths.emit buffer) := by
  suffices all : ∀ start : Exits × CodeBuffer, P start.2 →
      P (paths.foldl (fun (exits, buffer) path => emitPath exits buffer path) start).2 from
    emitExits_induct emits _ (all ([], buffer) start)
  intro start led
  induction paths generalizing start with
  | nil => exact led
  | cons path rest ih =>
      apply ih
      have asked : P (exitOf start.1 start.2 path.status).2.2 := by
        rw [exitOf]
        split
        · exact led
        · exact labels led
      exact emits _ (restore_induct emits path.saved.reverse (emits (.bind path.label) asked))

end

/-- The code of the operations comes first. -/
theorem emit_extends (paths : ExitPaths) (buffer : CodeBuffer) :
    buffer.insts.toList <+: (paths.emit buffer).insts.toList := by
  refine emit_induct (P := fun code => buffer.insts.toList <+: code.insts.toList) (fun inst longer => ?_)
    id paths List.prefix_rfl
  rw [CodeBuffer.emit, Array.toList_push]
  exact longer.trans (List.prefix_append ..)

/-- Code that looks for the label of a path looks for its exit behind the path; other code goes on
looking. -/
theorem emitPath_seeks {path : ExitPath} {paths : ExitPaths}
    (sound : exits.Sound low buffer.labels) (least : low ≤ buffer.labels)
    (below : path.label < low) (other : ∀ later ∈ paths, later.label ≠ path.label)
    (seeks : Seeks entry origin status left (path :: paths) exits buffer) :
    (emitPath exits buffer path).1.Sound low (emitPath exits buffer path).2.labels ∧
      low ≤ (emitPath exits buffer path).2.labels ∧
      Seeks entry origin status left paths (emitPath exits buffer path).1
        (emitPath exits buffer path).2 := by
  obtain ⟨exit, after, code, asked, soundAfter, leastAfter, listed, kept, same⟩ :=
    exitOf_spec path.status sound least
  have labels : ((restore path.saved.reverse (code.emit (.bind path.label))).emit
      (.jump exit)).labels = code.labels := labels_restore _ _
  rw [emitPath_of_exitOf asked, labels]
  refine ⟨soundAfter, leastAfter, ?_⟩
  obtain ⟨label, m, flow, unchanged, wanted⟩ := seeks
  rw [CodeBuffer.flow, ← same] at flow
  by_cases own : label = path.label
  · subst own
    have landed := CodeBuffer.flow_emit_land flow
    obtain ⟨n, restored, alike⟩ := flow_restore path.saved.reverse landed
    refine ⟨exit, n, CodeBuffer.flow_emit_effect restored (.jump exit) rfl, unchanged.trans alike,
      .inr ?_⟩
    rcases wanted with ⟨found, member, rfl, label⟩ | impossible
    · rcases List.mem_cons.mp member with rfl | later
      · exact listed
      · exact absurd label (other found later)
    · exact absurd (sound.given _ impossible).1 (Nat.not_le_of_lt below)
  · have passed := CodeBuffer.flow_emit_skip flow (.bind path.label)
      fun same => own (Inst.bind.inj same).symm
    obtain ⟨n, restored, alike⟩ := flow_restore path.saved.reverse passed
    refine ⟨label, n, CodeBuffer.flow_emit_skip restored (.jump exit) Inst.noConfusion,
      unchanged.trans alike, ?_⟩
    rcases wanted with ⟨found, member, status, rfl⟩ | known
    · rcases List.mem_cons.mp member with rfl | later
      · exact absurd rfl own
      · exact .inl ⟨found, later, status, rfl⟩
    · exact .inr (kept _ known)

theorem emitPaths_seeks {paths : ExitPaths} (sound : exits.Sound low buffer.labels)
    (least : low ≤ buffer.labels) (below : ∀ path ∈ paths, path.label < low)
    (distinct : (paths.map ExitPath.label).Nodup)
    (seeks : Seeks entry origin status left paths exits buffer) :
    ∃ after code, paths.foldl (fun (exits, buffer) path => emitPath exits buffer path)
        (exits, buffer) = (after, code) ∧
      (after.map Prod.snd).Nodup ∧ Seeks entry origin status left [] after code := by
  induction paths generalizing exits buffer with
  | nil => exact ⟨exits, buffer, rfl, sound.distinct, seeks⟩
  | cons path rest ih =>
      obtain ⟨fresh, distinct⟩ := List.nodup_cons.mp distinct
      have other (later : ExitPath) (member : later ∈ rest) : later.label ≠ path.label :=
        fun same => fresh (same ▸ List.mem_map_of_mem member)
      obtain ⟨soundAfter, leastAfter, seeksAfter⟩ :=
        emitPath_seeks sound least (below path (.head _)) other seeks
      exact ih soundAfter leastAfter (fun later member => below later (.tail _ member)) distinct
        seeksAfter

theorem emitExits_seeks {label : Label} (listed : (status, label) ∈ exits)
    (distinct : (exits.map Prod.snd).Nodup)
    (flow : buffer.flow entry origin = .running (some label) m) :
    (exits.foldl emitExit buffer).flow entry origin = .exited status m := by
  induction exits generalizing buffer with
  | nil => cases listed
  | cons exit rest ih =>
      obtain ⟨fresh, distinct⟩ := List.nodup_cons.mp distinct
      rw [List.foldl_cons]
      rcases List.mem_cons.mp listed with rfl | later
      · refine emitExits_induct (P := (·.flow entry origin = .exited status m)) (fun inst left =>
          CodeBuffer.flow_emit_settled (fun _ => rfl) left inst) rest ?_
        exact CodeBuffer.flow_emit_effect (CodeBuffer.flow_emit_land flow) (.ret status) rfl
      · have own : exit.2 ≠ label := fun same => fresh (same ▸ List.mem_map_of_mem later)
        have passed := CodeBuffer.flow_emit_skip flow (.bind exit.2)
          fun same => own (Inst.bind.inj same)
        exact ih later distinct (CodeBuffer.flow_emit_skip passed (.ret exit.1) Inst.noConfusion)

/-- Code that has left, or has faulted, has done so before the paths. -/
theorem emit_settled (settled : ∀ inst, flow.step entry inst = flow) (paths : ExitPaths)
    (led : buffer.flow entry origin = flow) : (paths.emit buffer).flow entry origin = flow :=
  emit_induct (P := (·.flow entry origin = flow))
    (fun inst led => CodeBuffer.flow_emit_settled settled led inst) id paths led

/-- Code that looks for the label of a path leaves with the status of the path. -/
theorem emit_leaves {paths : ExitPaths} {path : ExitPath} (member : path ∈ paths)
    (below : ∀ path ∈ paths, path.label < buffer.labels)
    (distinct : (paths.map ExitPath.label).Nodup)
    (flow : buffer.flow entry origin = .running (some path.label) m) :
    ∃ n, (paths.emit buffer).flow entry origin = .exited path.status n ∧ m.Alike n := by
  have none : Exits.Sound [] buffer.labels buffer.labels :=
    ⟨fun _ impossible => (nomatch impossible), List.nodup_nil⟩
  have seeks : Seeks entry origin path.status m paths [] buffer :=
    ⟨path.label, m, flow, .refl m, .inl ⟨path, member, rfl, rfl⟩⟩
  obtain ⟨after, code, emitted, others, label, n, later, alike, wanted⟩ :=
    emitPaths_seeks none (Nat.le_refl _) below distinct seeks
  have listed : (path.status, label) ∈ after := by
    rcases wanted with ⟨_, impossible, _⟩ | listed
    · cases impossible
    · exact listed
  refine ⟨n, ?_, alike⟩
  rw [emit, emitted]
  exact emitExits_seeks listed others later

end InlineCache.ExitPaths
