import InlineCache.Proofs.Code.Draft
import InlineCache.Proofs.Emit.ExitRequests
import InlineCache.Proofs.Emit.Exits

/-!
The code of exit paths as a list: one stretch for each path, then one for each status.  It binds the labels
of the paths and the labels it takes itself, each once, and a run that is sent to the label of a path restores
the registers of the path and returns its status.
-/

namespace InlineCache

namespace Machine

/-- Registers are read back from where they were saved, the last one saved first. -/
def restoreFloats (machine : Machine) (saved : SavedFloats) : Machine :=
  saved.foldr (fun entry machine => machine.setFloat entry.1 (machine.saves entry.2)) machine

variable (machine : Machine) {saved : SavedFloats} {reg : FloatRegister} {slot : Nat}

theorem restoreFloats_cons (first : FloatRegister × Nat) (rest : SavedFloats) :
    machine.restoreFloats (first :: rest) =
      (machine.restoreFloats rest).setFloat first.1 ((machine.restoreFloats rest).saves first.2) := rfl

theorem restoreFloats_eq (saved : SavedFloats) :
    machine.restoreFloats saved =
      { machine with floats := (machine.restoreFloats saved).floats } := by
  induction saved with
  | nil => rfl
  | cons first rest ih =>
      rw [restoreFloats_cons, ih]
      rfl

theorem saves_restoreFloats (saved : SavedFloats) :
    (machine.restoreFloats saved).saves = machine.saves := by
  rw [restoreFloats_eq]

theorem floats_restoreFloats_of_not_mem (other : reg ∉ saved.map Prod.fst) :
    (machine.restoreFloats saved).floats reg = machine.floats reg := by
  induction saved with
  | nil => rfl
  | cons first rest ih =>
      rw [List.map_cons, List.mem_cons, not_or] at other
      rw [restoreFloats_cons, floats_setFloat, if_neg other.1]
      exact ih other.2

theorem floats_restoreFloats (distinct : (saved.map Prod.fst).Nodup) (listed : (reg, slot) ∈ saved) :
    (machine.restoreFloats saved).floats reg = machine.saves slot := by
  induction saved with
  | nil => cases listed
  | cons first rest ih =>
      obtain ⟨fresh, distinct⟩ := List.nodup_cons.mp distinct
      rw [restoreFloats_cons, floats_setFloat, saves_restoreFloats]
      rcases List.mem_cons.mp listed with rfl | later
      · rw [if_pos rfl]
      · rw [if_neg fun same => fresh (List.mem_map.mpr ⟨_, later, same⟩)]
        exact ih distinct later

end Machine

namespace ExitPaths

/-- The exits have one label each, from the first free one on, and one status each. -/
structure Exits.Numbered (exits : Exits) (low high : Label) : Prop where
  labels : exits.map Prod.snd = List.range' low exits.length
  high : high = low + exits.length
  statuses : (exits.map Prod.fst).Nodup

def Exits.label (exits : Exits) (status : ExitStatus) : Label :=
  ((exits.find? (·.1 = status)).map Prod.snd).getD 0

def pathCode (exits : Exits) (path : ExitPath) : List Inst :=
  .bind path.label :: path.saved.reverse.map (fun entry => .restoreFloat entry.1 entry.2) ++
    [.jump (exits.label path.status)]

def exitCode (exit : ExitStatus × Label) : List Inst :=
  [.bind exit.2, .ret exit.1]

def code (paths : ExitPaths) (exits : Exits) : List Inst :=
  paths.flatMap (pathCode exits) ++ exits.flatMap exitCode

section

variable {low : Label} {exits final : Exits} {buffer : CodeBuffer}

theorem exitOf_numbered (status : ExitStatus) (numbered : exits.Numbered low buffer.labels) :
    ∃ label after code, exitOf exits buffer status = (label, after, code) ∧
      after.Numbered low code.labels ∧ exits <+: after ∧
      after.find? (·.1 = status) = some (status, label) ∧
      (∀ other, other ∈ after.map Prod.fst ↔ other ∈ exits.map Prod.fst ∨ other = status) ∧
      code.insts = buffer.insts := by
  rw [exitOf]
  cases found : exits.find? (·.1 = status) with
  | some exit =>
      obtain ⟨other, label⟩ := exit
      have same := List.find?_some found
      obtain rfl : other = status := of_decide_eq_true same
      have listed : other ∈ exits.map Prod.fst :=
        List.mem_map_of_mem (f := Prod.fst) (List.mem_of_find?_eq_some found)
      refine ⟨label, exits, buffer, rfl, numbered, List.prefix_rfl, found, fun another => ?_, rfl⟩
      exact ⟨.inl, fun either => either.elim id (· ▸ listed)⟩
  | none =>
      refine ⟨buffer.labels, exits ++ [(status, buffer.labels)], buffer.newLabel.2, rfl, ⟨?_, ?_, ?_⟩,
        List.prefix_append .., ?_, fun other => ?_, rfl⟩
      · rw [List.map_append, numbered.labels, List.length_append, List.length_singleton,
          List.range'_concat, Nat.one_mul, ← numbered.high]
        rfl
      · rw [CodeBuffer.newLabel, List.length_append, List.length_singleton, ← Nat.add_assoc,
          ← numbered.high]
      · rw [List.find?_eq_none] at found
        rw [List.map_append, List.nodup_append']
        refine ⟨numbered.statuses, List.nodup_singleton _, ?_⟩
        rintro _ early late
        obtain ⟨exit, member, rfl⟩ := List.mem_map.mp early
        exact found exit member (decide_eq_true (List.mem_singleton.mp late))
      · rw [List.find?_append, found]
        simp
      · rw [List.map_append, List.mem_append, List.map_singleton, List.mem_singleton]

theorem label_of_prefix {status : ExitStatus} {label : Label} (longer : exits <+: final)
    (found : exits.find? (·.1 = status) = some (status, label)) : final.label status = label := by
  -- exits are added behind the others, and the first one of a status is what is found
  obtain ⟨more, rfl⟩ := longer
  rw [Exits.label, List.find?_append, found]
  rfl

theorem insts_restore (saved : SavedFloats) (buffer : CodeBuffer) :
    (restore saved buffer).insts.toList =
      buffer.insts.toList ++ saved.map fun entry => .restoreFloat entry.1 entry.2 := by
  induction saved generalizing buffer with
  | nil => exact (List.append_nil _).symm
  | cons first rest ih =>
      refine (ih (buffer.emit (.restoreFloat first.1 first.2))).trans ?_
      rw [CodeBuffer.emit, Array.toList_push, List.append_assoc]
      rfl

theorem emitPath_eq (path : ExitPath) (numbered : exits.Numbered low buffer.labels) :
    ∃ after code, emitPath exits buffer path = (after, code) ∧ after.Numbered low code.labels ∧
      exits <+: after ∧
      (∀ status, status ∈ after.map Prod.fst ↔ status ∈ exits.map Prod.fst ∨ status = path.status) ∧
      ∀ final, after <+: final →
        code.insts.toList = buffer.insts.toList ++ pathCode final path := by
  obtain ⟨label, after, code, asked, still, longer, found, statuses, same⟩ :=
    exitOf_numbered path.status numbered
  have labels : (restore path.saved.reverse (code.emit (.bind path.label))).labels = code.labels :=
    labels_restore _ _
  refine ⟨after, _, emitPath_of_exitOf asked, ?_, longer, statuses, fun final furthest => ?_⟩
  · rw [CodeBuffer.emit, labels]
    exact still
  · rw [CodeBuffer.emit, Array.toList_push, insts_restore, CodeBuffer.emit, Array.toList_push, same,
      pathCode, label_of_prefix furthest found]
    simp only [List.append_assoc, List.cons_append, List.nil_append]

theorem emitPaths_eq (paths : ExitPaths) (numbered : exits.Numbered low buffer.labels) :
    ∃ after code, paths.foldl (fun (exits, buffer) path => emitPath exits buffer path)
        (exits, buffer) = (after, code) ∧ after.Numbered low code.labels ∧ exits <+: after ∧
      (∀ status, status ∈ after.map Prod.fst ↔
        status ∈ exits.map Prod.fst ∨ status ∈ paths.map ExitPath.status) ∧
      ∀ final, after <+: final →
        code.insts.toList = buffer.insts.toList ++ paths.flatMap (pathCode final) := by
  induction paths generalizing exits buffer with
  | nil =>
      refine ⟨exits, buffer, rfl, numbered, List.prefix_rfl, fun status => ?_, fun _ _ => ?_⟩
      · exact ⟨.inl, fun either => either.elim id nofun⟩
      · exact (List.append_nil _).symm
  | cons path rest ih =>
      obtain ⟨middle, between, first, still, longer, statuses, own⟩ := emitPath_eq path numbered
      obtain ⟨after, code, others, last, furthest, more, behind⟩ := ih still
      refine ⟨after, code, ?_, last, longer.trans furthest, fun status => ?_, fun final beyond => ?_⟩
      · rw [List.foldl_cons]
        dsimp only
        rw [first]
        exact others
      · rw [more, statuses, List.map_cons, List.mem_cons, or_assoc]
      · rw [behind final beyond, own final (furthest.trans beyond), List.flatMap_cons,
          List.append_assoc]

theorem emitExits_eq (exits : Exits) (buffer : CodeBuffer) :
    (exits.foldl emitExit buffer).labels = buffer.labels ∧
      (exits.foldl emitExit buffer).insts.toList =
        buffer.insts.toList ++ exits.flatMap exitCode := by
  induction exits generalizing buffer with
  | nil => exact ⟨rfl, (List.append_nil _).symm⟩
  | cons exit rest ih =>
      obtain ⟨labels, insts⟩ := ih (emitExit buffer exit)
      refine ⟨labels, insts.trans ?_⟩
      rw [emitExit, CodeBuffer.emit, CodeBuffer.emit, Array.toList_push, Array.toList_push,
        List.flatMap_cons]
      simp only [exitCode, List.append_assoc, List.cons_append, List.nil_append]

/-- What is emitted for paths: their code, with an exit for each status that one of them has. -/
theorem emit_eq (paths : ExitPaths) (buffer : CodeBuffer) :
    ∃ exits : Exits, exits.Numbered buffer.labels (paths.emit buffer).labels ∧
      (∀ status, status ∈ exits.map Prod.fst ↔ status ∈ paths.map ExitPath.status) ∧
      (paths.emit buffer).insts.toList = buffer.insts.toList ++ code paths exits := by
  have none : Exits.Numbered [] buffer.labels buffer.labels := ⟨rfl, rfl, List.nodup_nil⟩
  obtain ⟨exits, between, emitted, numbered, -, statuses, insts⟩ := emitPaths_eq paths none
  obtain ⟨labels, behind⟩ := emitExits_eq exits between
  have whole : paths.emit buffer = exits.foldl emitExit between := by rw [emit, emitted]
  refine ⟨exits, ?_, fun status => ?_, ?_⟩
  · rw [whole, labels]
    exact numbered
  · rw [statuses]
    exact ⟨fun either => either.resolve_left List.not_mem_nil, .inr⟩
  · rw [whole, behind, insts exits List.prefix_rfl, List.append_assoc, code]

end

theorem boundLabels_flatMap {α : Type} (items : List α) {code : α → List Inst} {label : α → Label}
    (binds : ∀ item, boundLabels (code item) = [label item]) :
    boundLabels (items.flatMap code) = items.map label := by
  induction items with
  | nil => rfl
  | cons item rest ih =>
      rw [List.flatMap_cons, boundLabels, List.filterMap_append, ← boundLabels, ← boundLabels, ih,
        binds]
      rfl

theorem boundLabels_pathCode (exits : Exits) (path : ExitPath) :
    boundLabels (pathCode exits path) = [path.label] := by
  have none : boundLabels (path.saved.reverse.map fun entry => .restoreFloat entry.1 entry.2) = [] :=
    List.filterMap_eq_nil_iff.mpr fun inst member => by
      obtain ⟨_, -, rfl⟩ := List.mem_map.mp member
      rfl
  rw [pathCode, boundLabels, List.filterMap_append, List.filterMap_cons]
  exact congrArg (fun labels => path.label :: labels ++ []) none

theorem boundLabels_code (paths : ExitPaths) (exits : Exits) :
    boundLabels (code paths exits) = paths.map ExitPath.label ++ exits.map Prod.snd := by
  rw [code, boundLabels, List.filterMap_append, ← boundLabels, ← boundLabels,
    boundLabels_flatMap paths (boundLabels_pathCode exits), boundLabels_flatMap exits fun _ => rfl]

theorem count_ret_code (paths : ExitPaths) (exits : Exits) (status : ExitStatus) :
    (code paths exits).count (.ret status) = (exits.map Prod.fst).count status := by
  have none : (paths.flatMap (pathCode exits)).count (.ret status) = 0 := by
    rw [List.count_eq_zero, List.mem_flatMap]
    rintro ⟨path, -, member⟩
    simp [pathCode] at member
  have each (exits : Exits) :
      (exits.flatMap exitCode).count (.ret status) = (exits.map Prod.fst).count status := by
    induction exits with
    | nil => rfl
    | cons exit rest ih =>
        rw [List.flatMap_cons, List.count_append, ih, List.map_cons, List.count_cons, Nat.add_comm]
        simp [exitCode, List.count_cons]
  rw [code, List.count_append, none, each, Nat.zero_add]

theorem label_eq {exits : Exits} {status : ExitStatus} {label : Label}
    (statuses : (exits.map Prod.fst).Nodup) (listed : (status, label) ∈ exits) :
    exits.label status = label := by
  rw [Exits.label]
  cases found : exits.find? (·.1 = status) with
  | none => exact absurd (decide_eq_true rfl) (List.find?_eq_none.mp found _ listed)
  | some exit =>
      have same := List.find?_some found
      rw [List.inj_on_of_nodup_map statuses (List.mem_of_find?_eq_some found) listed
        (of_decide_eq_true same)]
      rfl

section

variable {entry : Entry} {m : Machine} {label : Label} {paths : ExitPaths} {exits : Exits}

theorem foldl_unbound {insts : List Inst} (elsewhere : label ∉ boundLabels insts) :
    insts.foldl (Flow.step entry) (.running (some label) m) = .running (some label) m :=
  Flow.foldl_pending entry m (mt mem_boundLabels.mpr elsewhere)

theorem foldl_pathCode (path : ExitPath) :
    (pathCode exits path).foldl (Flow.step entry) (.running (some path.label) m) =
      .running (some (exits.label path.status)) (m.restoreFloats path.saved) := by
  have restores (saved : SavedFloats) :
      (saved.reverse.map fun entry => .restoreFloat entry.1 entry.2).foldl (Flow.step entry)
        (.running none m) = .running none (m.restoreFloats saved) := by
    induction saved with
    | nil => rfl
    | cons first rest ih =>
        rw [List.reverse_cons, List.map_append, List.foldl_append, ih]
        rfl
  rw [pathCode, List.cons_append, List.foldl_cons, Flow.step, if_pos rfl, List.foldl_append, restores]
  rfl

theorem foldl_exitCode {status : ExitStatus} :
    (exitCode (status, label)).foldl (Flow.step entry) (.running (some label) m) =
      .exited status m := by
  rw [exitCode, List.foldl_cons, Flow.step, if_pos rfl]
  rfl

/-- A run that looks for the label of a path goes by its code and by that of its exit. -/
theorem runCode_code {path : ExitPath} {low high : Label} (numbered : exits.Numbered low high)
    (below : ∀ path ∈ paths, path.label < low) (distinct : (paths.map ExitPath.label).Nodup)
    (listed : path ∈ paths) (known : path.status ∈ exits.map Prod.fst) :
    runCode entry (code paths exits) (some path.label) m =
      some (path.status, m.restoreFloats path.saved) := by
  obtain ⟨⟨status, label⟩, exit, same⟩ := List.mem_map.mp known
  obtain rfl : path.status = status := same.symm
  have given : ∀ exit ∈ exits, low ≤ exit.2 := fun exit member => by
    have labels : exit.2 ∈ exits.map Prod.snd := List.mem_map_of_mem member
    rw [numbered.labels, List.mem_range'_1] at labels
    exact labels.1
  have bounds {paths : ExitPaths} : boundLabels (paths.flatMap (pathCode exits)) = _ :=
    boundLabels_flatMap paths (boundLabels_pathCode exits)
  -- the label of the path is looked for in the paths before it, and that of the exit behind it
  have restored : (paths.flatMap (pathCode exits)).foldl (Flow.step entry)
      (.running (some path.label) m) = .running (some label) (m.restoreFloats path.saved) := by
    obtain ⟨front, back, rfl⟩ := List.append_of_mem listed
    rw [List.map_append, List.map_cons, List.nodup_middle, List.nodup_cons, List.mem_append,
      not_or] at distinct
    rw [List.flatMap_append, List.flatMap_cons, List.foldl_append, List.foldl_append,
      foldl_unbound (bounds ▸ distinct.1.1), foldl_pathCode, label_eq numbered.statuses exit,
      foldl_unbound]
    rw [bounds]
    rintro member
    obtain ⟨other, later, same⟩ := List.mem_map.mp member
    exact Nat.not_lt.mpr (same ▸ given _ exit) (below other (List.mem_append_right _ (.tail _ later)))
  have labels : (exits.map Prod.snd).Nodup := numbered.labels ▸ List.nodup_range'
  obtain ⟨front, back, rfl⟩ := List.append_of_mem exit
  rw [List.map_append, List.map_cons, List.nodup_middle, List.nodup_cons, List.mem_append,
    not_or] at labels
  have elsewhere : label ∉ boundLabels (front.flatMap exitCode) := by
    rw [boundLabels_flatMap front fun _ => rfl]
    exact labels.1.1
  rw [runCode_eq, code, List.foldl_append, restored, List.flatMap_append, List.flatMap_cons,
    List.foldl_append, List.foldl_append, foldl_unbound elsewhere, foldl_exitCode,
    Flow.foldl_exited, Flow.result?]

end

end ExitPaths

/-- What can be relied on of the code of exit paths behind other code, when requests have been answered so. -/
structure ExitPaths.Serves (answers : List ExitPath) (low high : Label) (code : List Inst) : Prop where
  /-- The label of each path, and each label that the code has taken itself, is bound once. -/
  binds : ∀ label, code.count (.bind label) =
    if label ∈ answers.map ExitPath.label ∨ low ≤ label ∧ label < high then 1 else 0
  returns : ∀ status, code.count (.ret status) = if status ∈ answers.map ExitPath.status then 1 else 0
  exits : high = low + (answers.map ExitPath.status).dedup.length
  /-- A run that is sent to the label of a request leaves with its status, and nothing but the saved registers
  is changed. -/
  leaves : ∀ entry machine, ∀ path ∈ answers, ∃ after,
    runCode entry code (some path.label) machine = some (path.status, after) ∧
      after = { machine with floats := after.floats } ∧
      (∀ reg, reg ∉ path.saved.map Prod.fst → after.floats reg = machine.floats reg) ∧
      ((path.saved.map Prod.fst).Nodup →
        ∀ reg slot, (reg, slot) ∈ path.saved → after.floats reg = machine.saves slot)

namespace ExitPaths

theorem nodup_boundLabels {paths : ExitPaths} {exits : Exits} {low high : Label}
    (numbered : exits.Numbered low high) (below : ∀ path ∈ paths, path.label < low)
    (distinct : (paths.map ExitPath.label).Nodup) : (boundLabels (code paths exits)).Nodup := by
  rw [boundLabels_code, List.nodup_append', numbered.labels]
  -- labels of paths were given before the code took its own
  refine ⟨distinct, List.nodup_range', fun label early late => ?_⟩
  obtain ⟨path, member, rfl⟩ := List.mem_map.mp early
  exact Nat.not_lt.mpr (List.mem_range'_1.mp late).1 (below path member)

theorem serves_code {session : ExitSession} (shared : session.Shared) {exits : Exits} {high : Label}
    (numbered : exits.Numbered session.buffer.labels high)
    (statuses : ∀ status, status ∈ exits.map Prod.fst ↔ status ∈ session.paths.map ExitPath.status) :
    Serves session.answers session.buffer.labels high (code session.paths exits) := by
  have answered {α : Type} (view : ExitPath → α) (a : α) :
      a ∈ session.paths.map view ↔ a ∈ session.answers.map view := by
    simp only [List.mem_map, shared.answered]
  refine ⟨fun label => ?binds, fun status => ?returns, ?exits, fun entry machine path asked => ?leaves⟩
  case binds =>
    rw [count_bind, (nodup_boundLabels numbered shared.given shared.labels).count]
    refine if_congr ?_ rfl rfl
    rw [boundLabels_code, List.mem_append, answered, numbered.labels, List.mem_range'_1, numbered.high]
  case returns =>
    rw [count_ret_code, numbered.statuses.count]
    exact if_congr ((statuses status).trans (answered _ _)) rfl rfl
  case exits =>
    have same : (exits.map Prod.fst).Perm (session.answers.map ExitPath.status).dedup := by
      rw [List.perm_ext_iff_of_nodup numbered.statuses (List.nodup_dedup _)]
      intro status
      rw [List.mem_dedup, statuses, answered]
    rw [numbered.high, ← same.length_eq, List.length_map]
  case leaves =>
    have listed := (shared.answered path).mpr asked
    have known := (statuses path.status).mpr (List.mem_map_of_mem listed)
    exact ⟨_, runCode_code numbered shared.given shared.labels listed known,
      machine.restoreFloats_eq path.saved, fun reg => machine.floats_restoreFloats_of_not_mem,
      fun distinct reg slot => machine.floats_restoreFloats distinct⟩

end ExitPaths

/-- Sharing exit paths changes nothing but how much code there is.  Requests are answered by the same label
exactly if they ask for the same, there are as many paths as there are different requests, and the code that
is emitted for them serves every request. -/
theorem shared_paths_serve_each_request (buffer : CodeBuffer) (requests : List ExitRequest) :
    let session := ExitSession.run buffer requests
    let emitted := session.paths.emit session.buffer
    let asked := requests.filterMap ExitRequest.pair?
    session.answers.map ExitPath.pair = asked ∧
      (∀ first ∈ session.answers, ∀ second ∈ session.answers, first.label = second.label ↔
        first.status = second.status ∧ first.saved = second.saved) ∧
      session.paths.length = asked.dedup.length ∧
      ∃ code, emitted.insts.toList = session.buffer.insts.toList ++ code ∧
        ExitPaths.Serves session.answers session.buffer.labels emitted.labels code := by
  intro session emitted asked
  have shared : session.Shared := ExitSession.shared_run buffer requests
  have pairs : session.answers.map ExitPath.pair = asked := ExitSession.pairs_answers buffer requests
  obtain ⟨exits, numbered, statuses, insts⟩ := ExitPaths.emit_eq session.paths session.buffer
  exact ⟨pairs, fun first one second two => shared.label_eq_iff one two, pairs ▸ shared.length_paths,
    _, insts, ExitPaths.serves_code shared numbered statuses⟩

/-- Registers in another order or in another slot are a path of their own, and so is another status. -/
theorem four_paths_for_five_requests :
    let requests : List ExitRequest :=
      [.path .bailout [(⟨0⟩, 0), (⟨1⟩, 1)], .label, .path .bailout [(⟨1⟩, 1), (⟨0⟩, 0)],
        .code (.jump 2), .path .exception [(⟨0⟩, 0), (⟨1⟩, 1)],
        .path .bailout [(⟨0⟩, 0), (⟨1⟩, 1)], .label, .path .bailout [(⟨0⟩, 2), (⟨1⟩, 1)]]
    let session := ExitSession.run .empty requests
    let machine : Machine := { Machine.start .empty with saves := fun slot => .ofInt slot }
    session.answers.map ExitPath.label = [0, 2, 3, 0, 5] ∧ session.paths.length = 4 ∧
      (session.paths.emit session.buffer).labels = 6 + 2 ∧
      ∃ code, (session.paths.emit session.buffer).insts.toList = session.buffer.insts.toList ++ code ∧
        code.count (.bind 5) = 1 ∧ code.count (.bind 7) = 1 ∧ code.count (.ret .bailout) = 1 ∧
        ∃ after, runCode ⟨[], []⟩ code (some 5) machine = some (.bailout, after) ∧
          after.floats ⟨0⟩ = .ofInt 2 ∧ after.floats ⟨1⟩ = .ofInt 1 ∧ after.floats ⟨2⟩ = .zero := by
  intro requests session machine
  obtain ⟨-, -, paths, code, insts, serves⟩ := shared_paths_serve_each_request .empty requests
  obtain ⟨after, runs, -, others, restored⟩ := serves.leaves ⟨[], []⟩ machine
    ⟨5, .bailout, [(⟨0⟩, 2), (⟨1⟩, 1)]⟩ (by decide)
  refine ⟨by decide, paths.trans (by decide), by decide, code, insts, ?_, ?_, ?_,
    after, runs, ?_, ?_, others ⟨2⟩ (by decide)⟩
  · exact (serves.binds 5).trans (by decide)
  · exact (serves.binds 7).trans (by decide)
  · exact (serves.returns .bailout).trans (by decide)
  · exact restored (by decide) ⟨0⟩ 2 (by decide)
  · exact restored (by decide) ⟨1⟩ 1 (by decide)

end InlineCache
