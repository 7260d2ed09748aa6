import InlineCache.Emit.ExitPath
import Mathlib.Data.List.Dedup

/-!
Requests for exit paths, in any order, with labels taken and code emitted in between.  There is one path for
each pair of a status and saved registers that was asked for, and a request is answered by the label of its
pair.
-/

namespace InlineCache

/-- What an assembler is asked for while exit paths are collected. -/
inductive ExitRequest
  | path (status : ExitStatus) (saved : SavedFloats)
  | label
  | code (inst : Inst)
  deriving DecidableEq, Repr

namespace ExitPath

def pair (path : ExitPath) : ExitStatus × SavedFloats :=
  (path.status, path.saved)

end ExitPath

def ExitRequest.pair? : ExitRequest → Option (ExitStatus × SavedFloats)
  | .path status saved => some (status, saved)
  | .label | .code _ => none

structure ExitSession where
  paths : ExitPaths
  buffer : CodeBuffer
  /-- The requests for paths so far, each with the label that answered it. -/
  answers : List ExitPath

namespace ExitSession

def start (buffer : CodeBuffer) : ExitSession :=
  ⟨[], buffer, []⟩

def serve (session : ExitSession) : ExitRequest → ExitSession
  | .path status saved =>
      let (label, paths, buffer) := session.paths.add session.buffer status saved
      ⟨paths, buffer, session.answers ++ [⟨label, status, saved⟩]⟩
  | .label => { session with buffer := session.buffer.newLabel.2 }
  | .code inst => { session with buffer := session.buffer.emit inst }

def run (buffer : CodeBuffer) (requests : List ExitRequest) : ExitSession :=
  requests.foldl serve (start buffer)

/-- The paths are the answers without repetitions: none has the label or the pair of another. -/
structure Shared (session : ExitSession) : Prop where
  given : ∀ path ∈ session.paths, path.label < session.buffer.labels
  labels : (session.paths.map ExitPath.label).Nodup
  pairs : (session.paths.map ExitPath.pair).Nodup
  answered : ∀ path, path ∈ session.paths ↔ path ∈ session.answers

variable {session : ExitSession}

theorem Shared.serve (shared : session.Shared) (request : ExitRequest) :
    (session.serve request).Shared := by
  cases request with
  | label =>
      exact { shared with given := fun path member => Nat.lt_succ_of_lt (shared.given path member) }
  | code inst => exact { shared with }
  | path status saved =>
      rw [ExitSession.serve, ExitPaths.add]
      cases found : session.paths.find? fun path => path.status = status && path.saved = saved with
      | some path =>
          have same := List.find?_some found
          rw [Bool.and_eq_true, decide_eq_true_eq, decide_eq_true_eq] at same
          obtain ⟨rfl, rfl⟩ := same
          have listed := List.mem_of_find?_eq_some found
          refine { shared with answered := fun other => ?_ }
          rw [shared.answered, List.mem_append, List.mem_singleton]
          exact ⟨.inl, fun either => either.elim id fun same => same ▸ (shared.answered _).mp listed⟩
      | none =>
          rw [List.find?_eq_none] at found
          refine ⟨fun path member => ?_, ?_, ?_, fun path => ?_⟩
          · rcases List.mem_append.mp member with before | now
            · exact Nat.lt_succ_of_lt (shared.given path before)
            · rw [List.mem_singleton.mp now]
              exact Nat.lt_succ_self _
          · rw [List.map_append, List.nodup_append']
            refine ⟨shared.labels, List.nodup_singleton _, ?_⟩
            rintro _ early late
            obtain ⟨path, member, rfl⟩ := List.mem_map.mp early
            exact Nat.ne_of_lt (shared.given path member) (List.mem_singleton.mp late)
          · rw [List.map_append, List.nodup_append']
            refine ⟨shared.pairs, List.nodup_singleton _, ?_⟩
            rintro _ early late
            obtain ⟨path, member, rfl⟩ := List.mem_map.mp early
            obtain ⟨rfl, rfl⟩ := Prod.mk.inj (List.mem_singleton.mp late)
            exact found path member (by simp)
          · rw [List.mem_append, List.mem_append, shared.answered]

theorem shared_run (buffer : CodeBuffer) (requests : List ExitRequest) :
    (run buffer requests).Shared := by
  suffices all : ∀ session : ExitSession, session.Shared → (requests.foldl serve session).Shared from
    all _ ⟨nofun, List.nodup_nil, List.nodup_nil, fun _ => Iff.rfl⟩
  induction requests with
  | nil => exact fun _ shared => shared
  | cons request rest ih => exact fun session shared => ih _ (shared.serve request)

/-- Every request for a path is answered, in the order of the requests. -/
theorem pairs_answers (buffer : CodeBuffer) (requests : List ExitRequest) :
    (run buffer requests).answers.map ExitPath.pair = requests.filterMap ExitRequest.pair? := by
  suffices all : ∀ session : ExitSession, (requests.foldl serve session).answers.map ExitPath.pair =
      session.answers.map ExitPath.pair ++ requests.filterMap ExitRequest.pair? from all (start buffer)
  induction requests with
  | nil => exact fun session => (List.append_nil _).symm
  | cons request rest ih =>
      intro session
      rw [List.foldl_cons, ih]
      cases request with
      | label | code => rfl
      | path status saved =>
          show (session.answers ++ [_]).map _ ++ _ = _
          rw [List.map_append, List.append_assoc]
          rfl

namespace Shared

variable (shared : session.Shared)
include shared

theorem label_eq_iff {first second : ExitPath} (one : first ∈ session.answers)
    (two : second ∈ session.answers) :
    first.label = second.label ↔ first.status = second.status ∧ first.saved = second.saved := by
  have here := (shared.answered first).mpr one
  have there := (shared.answered second).mpr two
  constructor
  · intro same
    rw [List.inj_on_of_nodup_map shared.labels here there same]
    exact ⟨rfl, rfl⟩
  · rintro ⟨status, saved⟩
    rw [List.inj_on_of_nodup_map shared.pairs here there (Prod.ext status saved)]

theorem length_paths :
    session.paths.length = (session.answers.map ExitPath.pair).dedup.length := by
  have same : (session.paths.map ExitPath.pair).Perm (session.answers.map ExitPath.pair).dedup := by
    rw [List.perm_ext_iff_of_nodup shared.pairs (List.nodup_dedup _)]
    intro pair
    simp only [List.mem_dedup, List.mem_map, shared.answered]
  rw [← same.length_eq, List.length_map]

end Shared

end ExitSession

end InlineCache
