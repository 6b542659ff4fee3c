import ImageDigest.Image.Sharpness
import ImageDigest.Proofs.Codec.Nearest
import ImageDigest.Proofs.Codec.Traced
import ImageDigest.Proofs.Except
import ImageDigest.Proofs.Geometry.Ceiling
import ImageDigest.Proofs.Sharpness

namespace ImageDigest.Image

variable {codec : Codec} {settings : SharpnessSettings} {b : Buffer}

theorem score_of_reject (policy : settings.oversize = .reject) :
    score codec settings b = scoreAsIs settings b := by
  unfold score
  rw [policy]
  cases settings.ceiling? <;> rfl

theorem score_of_within (within : ¬ AboveCeiling settings b) :
    score codec settings b = scoreAsIs settings b := by
  cases limit : settings.ceiling? with
  | none => simp only [score, limit]
  | some ceiling =>
      cases policy : settings.oversize with
      | reject => exact score_of_reject policy
      | downsample => simp only [score, limit, policy, if_neg (within_ceiling within limit)]

theorem score_of_above (policy : settings.oversize = .downsample)
    (above : AboveCeiling settings b) :
    score codec settings b = scoreReduced codec settings settings.maxPixels b := by
  simp only [score, ceiling_of_pos above.1, policy, if_pos above.2]

theorem scoreAsIs_calls (settings : SharpnessSettings) (b : Buffer) :
    (scoreAsIs settings b).calls = [] := Traced.calls_ofExcept _

theorem scoreAsIs_result (settings : SharpnessSettings) (b : Buffer) :
    (scoreAsIs settings b).result = (Score.ofBuffer settings b).mapError .sharpness := rfl

theorem scoreReduced_calls (codec : Codec) (settings : SharpnessSettings) (ceiling : Nat)
    (b : Buffer) :
    (scoreReduced codec settings ceiling b).calls =
      [.resize b.size ⟨b.size.ceiling ceiling, .fill⟩] := by
  rw [scoreReduced, Traced.calls_bind_silent _ (scoreAsIs_calls settings), Traced.calls_mapError,
    Codec.calls_tracedResize]

theorem result_scoreReduced (codec : Codec) (settings : SharpnessSettings) (ceiling : Nat)
    (b : Buffer) :
    (scoreReduced codec settings ceiling b).result =
      (codec.resize b ⟨b.size.ceiling ceiling, .fill⟩).mapError .codec >>= fun reduced =>
        (scoreAsIs settings reduced).result := by
  simp only [scoreReduced, Traced.result_bind, Traced.result_mapError, Codec.result_tracedResize]

theorem scoreReduced_ok (stretches : codec.Stretches) (above : AboveCeiling settings b) :
    ∃ reduced, codec.resize b ⟨b.size.ceiling settings.maxPixels, .fill⟩ = .ok reduced ∧
      (scoreReduced codec settings settings.maxPixels b).result =
        .ok (Score.ofSamples settings reduced) := by
  have target := Size.ceiling_hasPixels above.hasPixels settings.maxPixels
  obtain ⟨reduced, done, size⟩ := stretches b _ above.hasPixels target
  -- the score tests the ceiling again, and the reduced image passes
  have within : ¬ AboveCeiling settings reduced := by
    intro beyond
    have bound := Size.ceiling_area_le b.size above.1
    have more : settings.maxPixels < reduced.size.area := beyond.2
    rw [size] at more
    omega
  refine ⟨reduced, done, ?_⟩
  rw [result_scoreReduced, done, mapError_of_ok, ok_bind, scoreAsIs_result,
    Score.ofBuffer_of_within within, mapError_of_ok]

theorem score_downsample (stretches : codec.Stretches) (policy : settings.oversize = .downsample)
    (b : Buffer) :
    (∃ s, (score codec settings b).result = .ok s) ∧
    (score codec settings b).calls =
      if AboveCeiling settings b then
        [.resize b.size ⟨b.size.ceiling settings.maxPixels, .fill⟩] else [] := by
  by_cases above : AboveCeiling settings b
  · obtain ⟨reduced, -, scored⟩ := scoreReduced_ok stretches above
    rw [score_of_above policy above, if_pos above]
    exact ⟨⟨_, scored⟩, scoreReduced_calls codec settings settings.maxPixels b⟩
  · rw [score_of_within above, scoreAsIs_result, Score.ofBuffer_of_within above, if_neg above]
    exact ⟨⟨_, rfl⟩, rfl⟩

theorem score_reject (codec : Codec) (policy : settings.oversize = .reject) (b : Buffer) :
    (score codec settings b).calls = [] ∧
    ((score codec settings b).result =
        .error (.sharpness (.tooLarge b.pixelCount settings.maxPixels)) ↔
      AboveCeiling settings b) ∧
    ∀ e, (score codec settings b).result = .error e →
      e = .sharpness (.tooLarge b.pixelCount settings.maxPixels) := by
  rw [score_of_reject policy, scoreAsIs_result]
  refine ⟨rfl, ?_⟩
  by_cases above : AboveCeiling settings b
  · rw [Score.ofBuffer_of_above above]
    refine ⟨iff_of_true rfl above, ?_⟩
    intro e failed
    exact (Except.error.inj failed).symm
  · rw [Score.ofBuffer_of_within above]
    refine ⟨iff_of_false ?_ above, ?_⟩
    · intro failed
      cases failed
    · intro e failed
      cases failed

theorem score_of_no_calls (silent : (score codec settings b).calls = []) :
    (score codec settings b).result = (Score.ofBuffer settings b).mapError .sharpness := by
  by_cases above : AboveCeiling settings b
  · cases policy : settings.oversize with
    | reject => rw [score_of_reject policy, scoreAsIs_result]
    | downsample =>
        rw [score_of_above policy above, scoreReduced_calls] at silent
        cases silent
  · rw [score_of_within above, scoreAsIs_result]

/-- Downsampling always gives a score, with one call of the codec above the ceiling and none
below. Rejecting makes no call and refuses exactly what is above the ceiling. Without a call the
image is scored as it is. -/
theorem score_by_policy (codec : Codec) (stretches : codec.Stretches)
    (settings : SharpnessSettings) (b : Buffer) :
    (settings.oversize = .downsample →
      (∃ s, (score codec settings b).result = .ok s) ∧
      (score codec settings b).calls =
        if 0 < settings.maxPixels ∧ settings.maxPixels < b.pixelCount then
          [.resize b.size ⟨b.size.ceiling settings.maxPixels, .fill⟩] else []) ∧
    (settings.oversize = .reject →
      (score codec settings b).calls = [] ∧
      ((score codec settings b).result =
          .error (.sharpness (.tooLarge b.pixelCount settings.maxPixels)) ↔
        0 < settings.maxPixels ∧ settings.maxPixels < b.pixelCount) ∧
      ∀ e, (score codec settings b).result = .error e →
        e = .sharpness (.tooLarge b.pixelCount settings.maxPixels)) ∧
    ((score codec settings b).calls = [] →
      (score codec settings b).result = (Score.ofBuffer settings b).mapError .sharpness) :=
  ⟨fun policy => score_downsample stretches policy b, fun policy => score_reject codec policy b,
    score_of_no_calls⟩

theorem score_by_policy_row :
    (∃ s, (score .nearest { maxPixels := 1 } (.filled ⟨900, 1⟩ ⟨1, 2, 3⟩)).result = .ok s) ∧
    (score .nearest { maxPixels := 1 } (.filled ⟨900, 1⟩ ⟨1, 2, 3⟩)).calls =
      [.resize ⟨900, 1⟩ ⟨⟨1, 1⟩, .fill⟩] ∧
    (score .nearest { maxPixels := 1, oversize := .reject } (.filled ⟨900, 1⟩ ⟨1, 2, 3⟩)).result =
      .error (.sharpness (.tooLarge 900 1)) ∧
    (score .nearest { maxPixels := 900 } (.filled ⟨900, 1⟩ ⟨1, 2, 3⟩)).result = .ok (.ofNat 0) := by
  have stretches := Codec.nearest_regular.stretches
  obtain ⟨scored, calls⟩ :=
    (score_by_policy .nearest stretches { maxPixels := 1 } (.filled ⟨900, 1⟩ ⟨1, 2, 3⟩)).1 rfl
  have refused := (score_by_policy .nearest stretches { maxPixels := 1, oversize := .reject }
    (.filled ⟨900, 1⟩ ⟨1, 2, 3⟩)).2.1 rfl
  have asIs := (score_by_policy .nearest stretches { maxPixels := 900 }
    (.filled ⟨900, 1⟩ ⟨1, 2, 3⟩)).2.2
  have target : Size.ceiling ⟨900, 1⟩ 1 = ⟨1, 1⟩ := by decide +kernel
  refine ⟨scored, ?_, refused.2.1.mpr (by decide), asIs rfl⟩
  rw [calls, if_pos (by decide)]
  exact congrArg (fun size => [CodecCall.resize _ ⟨size, .fill⟩]) target

end ImageDigest.Image
