import Mathlib
import VoiceBench.Config.Load
import VoiceBench.Proofs.Binary.Share
import VoiceBench.Proofs.Analysis.Windows
import VoiceBench.Proofs.Checks

/-!
# Sizes derived from a checked configuration

`ToolConfig.validate` accepts a configuration exactly when its analysis parameters pass their
checks (`AnalysisConfig.Checked`), the resampler program is not blank, both naming patterns hold
their placeholders and the figure has an area (`validate_eq_ok_iff`).

Two sizes are derived from the analysis parameters. The coherence window at a rate is the base
window scaled by `rate / canonicalRate`, rounded down; the product is a machine word, so the
scaling is exact while `base * rate` stays below `2 ^ 64` (`coherenceWindow_of_lt`), and then the
window at the canonical rate is the base window (`coherenceWindow_canonical`). The hop of a
window is `(1 - overlap) * window` in single precision; a window of at most `2 ^ 24` samples is a
single exactly, so for an overlap in `[0, 1)` the hop lies in `1..=window` (`hop_le_window`) and a
delay estimator over the correlation window is accepted at every positive rate.

Both bounds are needed: a base window of `2 ^ 63 - 1` wraps at the canonical rate, and a window
of `2 ^ 24 + 3` samples rounds up to the next single, so with no overlap its hop exceeds it
(`analysis_sizes_out_of_range`).
-/

namespace VoiceBench.Config

open Binary Analysis

/-- The checks `ToolConfig.validate` makes of the analysis parameters, in its order. -/
@[mk_iff]
structure AnalysisConfig.Checked (a : AnalysisConfig) : Prop where
  canonicalRate_ne_zero : a.canonicalRate ≠ 0
  minRate_le : a.minRate ≤ a.canonicalRate
  two_le_base : 2 ≤ a.coherenceBaseWindow
  two_le_correlation : 2 ≤ a.correlationWindow
  overlap_nonneg : 0 ≤ a.overlap
  overlap_lt_one : a.overlap < 1

/-! ## What validation accepts -/

/-- A pattern holds every placeholder that occurs in it. -/
theorem missingPlaceholder_eq_none {pattern : String} {placeholders : List String}
    (h : ∀ p ∈ placeholders, p.toList.isInfixOf_internal pattern.toList = true) :
    missingPlaceholder pattern placeholders = none := by
  unfold missingPlaceholder
  rw [List.find?_eq_none]
  simpa using h

/-- Validation passes exactly when every check it makes passes. -/
theorem validate_eq_ok_iff (c : ToolConfig) : c.validate = .ok () ↔
    c.analysis.Checked ∧ c.resampler.program.all Text.isBlank = false ∧
    missingPlaceholder c.files.aecFilterPattern ["{base}", "{ref}", "{mic}"] = none ∧
    missingPlaceholder c.files.nlmodelPattern ["{base}", "{rows}", "{cols}"] = none ∧
    c.plot.width ≠ 0 ∧ c.plot.height ≠ 0 := by
  unfold ToolConfig.validate
  simp only [guard_bind_eq_ok_iff]
  -- the two searches for a missing placeholder are matches, not guards
  cases haec : missingPlaceholder c.files.aecFilterPattern ["{base}", "{ref}", "{mic}"] with
  | some p => simp [throw, throwThe, MonadExceptOf.throw, bind, Except.bind]
  | none =>
    cases hnl : missingPlaceholder c.files.nlmodelPattern ["{base}", "{rows}", "{cols}"] with
    | some q => simp [throw, throwThe, MonadExceptOf.throw, bind, Except.bind]
    | none =>
      rw [guard_eq_ok_iff, AnalysisConfig.checked_iff]
      constructor
      · rintro ⟨h0, hmin, hbase, hcorr, hoverlap, hprog, hsize⟩
        obtain ⟨hov0, hov1⟩ : 0 ≤ c.analysis.overlap ∧ c.analysis.overlap < 1 := by
          simpa using hoverlap
        exact ⟨⟨h0, Nat.le_of_not_lt hmin, Nat.le_of_not_lt hbase, Nat.le_of_not_lt hcorr, hov0,
          hov1⟩, by simpa using hprog, rfl, rfl, fun h => hsize (.inl h), fun h => hsize (.inr h)⟩
      · rintro ⟨⟨h0, hmin, hbase, hcorr, hov0, hov1⟩, hprog, -, -, hw, hh⟩
        refine ⟨h0, Nat.not_lt_of_le hmin, Nat.not_lt_of_le hbase, Nat.not_lt_of_le hcorr,
          by simp [hov0, hov1], by simp [hprog], ?_⟩
        rintro (h | h)
        · exact hw h
        · exact hh h

/-- The default resampler program is not blank. -/
theorem default_program_not_blank : ({} : ResamplerConfig).program.all Text.isBlank = false := by
  show "sox".all Text.isBlank = false
  rw [String.all_bool_eq]
  simp only [String.reduceToList]
  decide

/-- The default naming patterns hold their placeholders. -/
theorem default_patterns_complete :
    missingPlaceholder ({} : FileConfig).aecFilterPattern ["{base}", "{ref}", "{mic}"] = none ∧
    missingPlaceholder ({} : FileConfig).nlmodelPattern ["{base}", "{rows}", "{cols}"] = none := by
  constructor <;>
  · apply missingPlaceholder_eq_none
    simp only [List.forall_mem_cons, List.not_mem_nil, IsEmpty.forall_iff, implies_true,
      and_true, String.reduceToList]
    decide

/-- Validation of a configuration with the default resampler, naming and figure depends on its
analysis parameters only. -/
theorem validate_of_checked {a : AnalysisConfig} (h : a.Checked) :
    ({ analysis := a } : ToolConfig).validate = .ok () :=
  (validate_eq_ok_iff _).2 ⟨h, default_program_not_blank, default_patterns_complete.1,
    default_patterns_complete.2, by simp, by simp⟩

/-! ## The coherence window -/

namespace AnalysisConfig

/-- While the product of the base window and the rate fits a machine word, the coherence
window is that product divided by the canonical rate, rounded down. -/
theorem coherenceWindow_of_lt (a : AnalysisConfig) {r : Nat}
    (h : a.coherenceBaseWindow * r < 2 ^ 64) :
    a.coherenceWindow r = a.coherenceBaseWindow * r / a.canonicalRate := by
  rw [coherenceWindow, Nat.pow_eq, Nat.mod_eq_of_lt h]

/-- At the canonical rate the coherence window is the base window. -/
theorem coherenceWindow_canonical (a : AnalysisConfig) (h0 : a.canonicalRate ≠ 0)
    (h : a.coherenceBaseWindow * a.canonicalRate < 2 ^ 64) :
    a.coherenceWindow a.canonicalRate = a.coherenceBaseWindow := by
  rw [coherenceWindow_of_lt a h, Nat.mul_div_cancel _ (Nat.pos_of_ne_zero h0)]

/-! ## The hop -/

/-- A hop is never zero, whatever the window and the overlap. -/
theorem one_le_hop (a : AnalysisConfig) (w : Nat) : 1 ≤ a.hop w :=
  le_max_right _ _

/-- A window of one to `2 ^ 24` samples is a single exactly, and its share `1 - overlap` for an
overlap in `[0, 1)` is at most one, so the product, truncated, is at most the window. -/
theorem hop_le_window {a : AnalysisConfig} (h0 : 0 ≤ a.overlap) (h1 : a.overlap < 1) {w : Nat}
    (hw1 : 1 ≤ w) (hw : w ≤ 2 ^ 24) : a.hop w ≤ w := by
  obtain ⟨q, e, hq, hx, hfields, hq23, hval⟩ := singleOfNat_exact hw1 hw
  have hshare : AtMost w ((1 - a.overlap) * singleOfNat w).toModel.unpack := by
    rw [single_mul_comm, ← hval]
    exact atMost_mul_share hx hfields hq23 (atMost_one_sub h0 h1)
  have hcast := castSingle_le_of_atMost hshare (show (0 : Int) ≤ Nat.pow 2 64 - 1 by simp)
  unfold hop
  omega

example : ({} : AnalysisConfig).hop 32768 = 16384 := by decide

end AnalysisConfig

/-! ## Sizes of a checked configuration -/

/-- The sizes derived from a configuration that validation accepts: the coherence window is the
exact scaled base window while the product fits a machine word, the hop of every window of one
to `2 ^ 24` samples lies in `1..=window`, and a delay estimator over the correlation window is
accepted at every positive rate when that window is at most `2 ^ 24` samples. -/
theorem validated_analysis_sizes {c : ToolConfig} (h : c.validate = .ok ()) :
    (∀ r, c.analysis.coherenceBaseWindow * r < 2 ^ 64 →
      c.analysis.coherenceWindow r = c.analysis.coherenceBaseWindow * r / c.analysis.canonicalRate) ∧
    (c.analysis.coherenceBaseWindow * c.analysis.canonicalRate < 2 ^ 64 →
      c.analysis.coherenceWindow c.analysis.canonicalRate = c.analysis.coherenceBaseWindow) ∧
    (∀ w, 1 ≤ w → w ≤ 2 ^ 24 → 1 ≤ c.analysis.hop w ∧ c.analysis.hop w ≤ w) ∧
    (c.analysis.correlationWindow ≤ 2 ^ 24 → ∀ rate, 0 < rate →
      DelayEstimator.new c.analysis.correlationWindow
          (c.analysis.hop c.analysis.correlationWindow) rate =
        .ok ⟨c.analysis.correlationWindow, c.analysis.hop c.analysis.correlationWindow, rate⟩) := by
  obtain ⟨hc, -⟩ := (validate_eq_ok_iff c).1 h
  have hhop : ∀ w, 1 ≤ w → w ≤ 2 ^ 24 → 1 ≤ c.analysis.hop w ∧ c.analysis.hop w ≤ w :=
    fun w hw1 hw => ⟨c.analysis.one_le_hop w,
      AnalysisConfig.hop_le_window hc.overlap_nonneg hc.overlap_lt_one hw1 hw⟩
  refine ⟨fun r hr => c.analysis.coherenceWindow_of_lt hr,
    c.analysis.coherenceWindow_canonical hc.canonicalRate_ne_zero, hhop, ?_⟩
  intro hw rate hrate
  obtain ⟨hpos, hle⟩ := hhop _ (by linarith [hc.two_le_correlation]) hw
  exact DelayEstimator.new_of_params (by linarith [hc.two_le_correlation]) hpos hle hrate

/-- The default configuration: a coherence window of 512 samples at 16 kHz and a hop of half
the 32768-sample correlation window. -/
theorem default_analysis_sizes :
    ({} : ToolConfig).validate = .ok () ∧
    ((∀ r, 512 * r < 2 ^ 64 → ({} : AnalysisConfig).coherenceWindow r = 512 * r / 16000) ∧
      (512 * 16000 < 2 ^ 64 → ({} : AnalysisConfig).coherenceWindow 16000 = 512) ∧
      (∀ w, 1 ≤ w → w ≤ 2 ^ 24 →
        1 ≤ ({} : AnalysisConfig).hop w ∧ ({} : AnalysisConfig).hop w ≤ w) ∧
      (32768 ≤ 2 ^ 24 → ∀ rate, 0 < rate →
        DelayEstimator.new 32768 (({} : AnalysisConfig).hop 32768) rate =
          .ok ⟨32768, ({} : AnalysisConfig).hop 32768, rate⟩)) := by
  have h : ({} : ToolConfig).validate = .ok () :=
    validate_of_checked ⟨by decide, by decide, by decide, by decide, by decide, by decide⟩
  exact ⟨h, validated_analysis_sizes h⟩

/-- Both bounds are needed. A base window of `2 ^ 63 - 1` passes validation, but its product
with the canonical rate wraps, so its coherence window at that rate is not the base window; and
a correlation window of `2 ^ 24 + 3` samples with no overlap passes validation, but the window
rounds up to the next single, so its hop exceeds it and no delay estimator accepts the pair. -/
theorem analysis_sizes_out_of_range :
    ({ analysis := { coherenceBaseWindow := 9223372036854775807 } } : ToolConfig).validate =
        .ok () ∧
      ({ coherenceBaseWindow := 9223372036854775807 } : AnalysisConfig).coherenceWindow 16000 =
        1152921504606845 ∧
    ({ analysis := { correlationWindow := 16777219, overlap := 0 } } : ToolConfig).validate =
        .ok () ∧
      ({ correlationWindow := 16777219, overlap := 0 } : AnalysisConfig).hop 16777219 = 16777220 ∧
      ∀ rate est, DelayEstimator.new 16777219 16777220 rate ≠ .ok est := by
  refine ⟨validate_of_checked ⟨by decide, by decide, by decide, by decide, by decide, by decide⟩,
    by decide, validate_of_checked ⟨by decide, by decide, by decide, by decide, by decide, by decide⟩,
    by decide +kernel, ?_⟩
  intro rate est h
  have := (DelayEstimator.new_eq_ok h).2.2.2.1
  omega

end VoiceBench.Config
