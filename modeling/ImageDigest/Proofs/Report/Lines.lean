import ImageDigest.Report.Lines

namespace ImageDigest.Report

def SaysYes (lines : List String) : Prop :=
  ∃ rest, lines.getLast? = some ("    Similar: yes" ++ rest)

theorem comparison_saysYes (left right : String) (r : Similarity) (threshold : Float) :
    SaysYes (comparisonLines left right r threshold) ↔ threshold ≤ r.similarity := by
  by_cases reached : threshold ≤ r.similarity
  · simp only [reached, iff_true]
    refine ⟨" (threshold " ++ Number.Decimal.fixed 3 threshold ++ ")", ?_⟩
    apply congrArg some
    apply String.toList_injective
    simp [similarLine, detailLine, indent, yesNo, reached]
  · simp only [reached, iff_false]
    intro printed
    rcases printed with ⟨rest, last⟩
    have texts := congrArg String.toList (Option.some.inj last)
    simp [similarLine, detailLine, indent, yesNo, reached] at texts

end ImageDigest.Report
