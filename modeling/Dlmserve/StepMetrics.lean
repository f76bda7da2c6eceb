import Dlmserve.EngineDevice
import Dlmserve.Library.Window

set_option autoImplicit false

namespace Dlmserve

-- The gauges and histograms that record_step and the engine's loop write; a histogram
-- is the list of what it observed.
structure StepMetrics where
  denoisingStepDurationSeconds : List ℚ := []
  stepBatchSize : List Nat := []
  tokensCommittedWindow : List (ℚ × Nat) := []
  throughputTokensPerSecond : ℚ := 0
  queueDepth : Nat := 0

def windowSeconds : ℚ := 10

-- now - _tokens_committed_window[0][0] if _tokens_committed_window else 1.0
def windowElapsed (now : ℚ) : List (ℚ × Nat) → ℚ
  | [] => 1
  | oldest :: _ => now - oldest.1

def recordStep (batchSize : Nat) (stepDurationS : ℚ) (tokensCommitted : Nat) (now : ℚ) (metrics : StepMetrics) : StepMetrics :=
  let window := Window.prune Prod.fst (now - windowSeconds) (metrics.tokensCommittedWindow ++ [(now, tokensCommitted)])
  let total := (window.map Prod.snd).sum
  let elapsed := windowElapsed now window
  { metrics with
    denoisingStepDurationSeconds := metrics.denoisingStepDurationSeconds ++ [stepDurationS]
    stepBatchSize := metrics.stepBatchSize ++ [batchSize]
    tokensCommittedWindow := window
    throughputTokensPerSecond := total / max elapsed (1 / 1000000) }

structure StepCall where
  batchSize : Nat
  stepDurationS : ℚ
  tokensCommitted : Nat
  now : ℚ
  queueDepth : Nat

def StepCall.entry (call : StepCall) : ℚ × Nat := (call.now, call.tokensCommitted)

def StepMetrics.record (metrics : StepMetrics) (call : StepCall) : StepMetrics :=
  { recordStep call.batchSize call.stepDurationS call.tokensCommitted call.now metrics with queueDepth := call.queueDepth }

def StepMetrics.recordAll (calls : List StepCall) : StepMetrics := calls.foldl StepMetrics.record {}

section Rolling

variable (calls : List StepCall) (last : StepCall)

theorem record_all_last :
    StepMetrics.recordAll (calls ++ [last]) = (StepMetrics.recordAll calls).record last := by
  rw [StepMetrics.recordAll, List.foldl_append]
  rfl

theorem record_all_histograms :
    (StepMetrics.recordAll calls).stepBatchSize = calls.map StepCall.batchSize ∧
      (StepMetrics.recordAll calls).denoisingStepDurationSeconds = calls.map StepCall.stepDurationS := by
  induction calls using List.reverseRecOn with
  | nil => exact ⟨rfl, rfl⟩
  | append_singleton calls last ih =>
      rw [record_all_last, List.map_append, List.map_append, ← ih.1, ← ih.2]
      exact ⟨rfl, rfl⟩

theorem record_all_window : (StepMetrics.recordAll calls).tokensCommittedWindow =
    (calls.map StepCall.entry).foldl (Window.push Prod.fst windowSeconds) [] := by
  induction calls using List.reverseRecOn with
  | nil => rfl
  | append_singleton calls last ih =>
      rw [record_all_last, List.map_append, List.foldl_append, ← ih]
      rfl

theorem record_all_recent (ordered : Window.Ordered Prod.fst ((calls ++ [last]).map StepCall.entry)) :
    (StepMetrics.recordAll (calls ++ [last])).tokensCommittedWindow =
      Window.recent Prod.fst windowSeconds last.now ((calls ++ [last]).map StepCall.entry) := by
  rw [record_all_window, List.map_append, List.map_singleton]
  rw [List.map_append, List.map_singleton] at ordered
  exact Window.pushes_recent Prod.fst windowSeconds _ last.entry ordered

theorem record_all_throughput : (StepMetrics.recordAll (calls ++ [last])).throughputTokensPerSecond =
    (((StepMetrics.recordAll (calls ++ [last])).tokensCommittedWindow.map Prod.snd).sum : ℚ) /
      max (windowElapsed last.now (StepMetrics.recordAll (calls ++ [last])).tokensCommittedWindow) (1 / 1000000) := by
  rw [record_all_last]
  rfl

theorem recent_oldest (entries : List (ℚ × Nat)) (now : ℚ) (ordered : Window.Ordered Prod.fst entries)
    (fresh : ∃ entry ∈ entries, entry.1 = now) :
    ∃ oldest ∈ entries, now - windowSeconds ≤ oldest.1 ∧
      (∀ entry ∈ entries, now - windowSeconds ≤ entry.1 → oldest.1 ≤ entry.1) ∧
      windowElapsed now (Window.recent Prod.fst windowSeconds now entries) = now - oldest.1 := by
  obtain ⟨entry, member, rfl⟩ := fresh
  have inside : entry ∈ Window.recent Prod.fst windowSeconds entry.1 entries := by
    rw [Window.recent, List.mem_filter]
    exact ⟨member, decide_eq_true (by rw [windowSeconds]; linarith)⟩
  have sorted : Window.Ordered Prod.fst (Window.recent Prod.fst windowSeconds entry.1 entries) := ordered.filter _
  have kept (other : ℚ × Nat) : other ∈ Window.recent Prod.fst windowSeconds entry.1 entries ↔
      other ∈ entries ∧ entry.1 - windowSeconds ≤ other.1 := by
    rw [Window.recent, List.mem_filter, decide_eq_true_iff]
  cases shape : Window.recent Prod.fst windowSeconds entry.1 entries with
  | nil =>
      rw [shape] at inside
      cases inside
  | cons oldest rest =>
      rw [shape] at sorted
      have first := (List.pairwise_cons.mp sorted).1
      obtain ⟨found, young⟩ := (kept oldest).mp (by rw [shape]; exact List.mem_cons_self)
      refine ⟨oldest, found, young, fun other there recent => ?_, rfl⟩
      have listed := (kept other).mpr ⟨there, recent⟩
      rw [shape] at listed
      rcases List.mem_cons.mp listed with rfl | later
      · exact le_refl _
      · exact first other later

end Rolling

-- Whatever steps were recorded under a clock that does not run backwards, the gauge
-- divides the tokens of the last ten seconds by the time since the oldest step that is
-- among them, or by a microsecond, and the histograms observed every step once.
theorem throughput_window (calls : List StepCall) (last : StepCall)
    (ordered : Window.Ordered StepCall.now (calls ++ [last])) :
    ∃ oldest ∈ calls ++ [last], last.now - windowSeconds ≤ oldest.now ∧
      (∀ call ∈ calls ++ [last], last.now - windowSeconds ≤ call.now → oldest.now ≤ call.now) ∧
      (StepMetrics.recordAll (calls ++ [last])).throughputTokensPerSecond =
        ((((calls ++ [last]).filter fun call => decide (last.now - windowSeconds ≤ call.now)).map
          StepCall.tokensCommitted).sum : ℚ) / max (last.now - oldest.now) (1 / 1000000) ∧
      (StepMetrics.recordAll (calls ++ [last])).stepBatchSize = (calls ++ [last]).map StepCall.batchSize ∧
      (StepMetrics.recordAll (calls ++ [last])).denoisingStepDurationSeconds =
        (calls ++ [last]).map StepCall.stepDurationS := by
  have entries : Window.Ordered Prod.fst ((calls ++ [last]).map StepCall.entry) := List.pairwise_map.mpr ordered
  obtain ⟨entry, member, young, first, elapsed⟩ := recent_oldest ((calls ++ [last]).map StepCall.entry) last.now entries
    ⟨last.entry, List.mem_map_of_mem (by simp), rfl⟩
  obtain ⟨oldest, found, rfl⟩ := List.mem_map.mp member
  obtain ⟨sizes, durations⟩ := record_all_histograms (calls ++ [last])
  refine ⟨oldest, found, young, fun call there => first call.entry (List.mem_map_of_mem there), ?_, sizes, durations⟩
  have total : (Window.recent Prod.fst windowSeconds last.now ((calls ++ [last]).map StepCall.entry)).map Prod.snd =
      ((calls ++ [last]).filter fun call => decide (last.now - windowSeconds ≤ call.now)).map StepCall.tokensCommitted := by
    rw [Window.recent, List.filter_map, List.map_map]
    rfl
  rw [record_all_throughput, record_all_recent calls last entries, total, elapsed]
  rfl

def stepCallAt (now : ℚ) (tokensCommitted : Nat) : StepCall :=
  { batchSize := 2, stepDurationS := 1 / 10, tokensCommitted := tokensCommitted, now := now, queueDepth := 0 }

-- The step at the first second has left the window by the thirteenth.
theorem throughput_window_moved_on :
    ∃ oldest ∈ [stepCallAt 1 8, stepCallAt 12 4, stepCallAt 13 6], 3 ≤ oldest.now ∧
      (StepMetrics.recordAll [stepCallAt 1 8, stepCallAt 12 4, stepCallAt 13 6]).throughputTokensPerSecond =
        10 / max (13 - oldest.now) (1 / 1000000) := by
  obtain ⟨oldest, member, young, _, throughput, _⟩ := throughput_window [stepCallAt 1 8, stepCallAt 12 4] (stepCallAt 13 6)
    (by rw [Window.Ordered]; decide)
  refine ⟨oldest, member, le_trans (by decide +kernel) young, throughput.trans ?_⟩
  congr 1
  decide +kernel

end Dlmserve
