import BearerGate.Access.Guard
import BearerGate.Proofs.Access.Matching

namespace BearerGate.Guard

theorem decide_of_not_readable {g : Guard} {method target path : Text}
    (hp : Path.normalize? (pathPart target) = some path)
    (hr : ¬(isRead method = true ∧ ∃ q ∈ g.readable, q.accepts path = true)) :
    g.decide method target = .authenticate ↔ ∃ q ∈ g.api, q.accepts path = true := by
  have hread : (isRead method && g.readable.any (·.accepts path)) = false := by
    rw [Bool.eq_false_iff, ne_eq, Bool.and_eq_true, List.any_eq_true]
    exact hr
  simp only [decide, hp, hread, Bool.false_eq_true, if_false]
  rw [← List.any_eq_true]
  cases g.api.any (·.accepts path) <;> simp

/-- Below an API subtree a token is required exactly if no line feed follows the root of the subtree,
or another API pattern covers the path. -/
theorem decide_subtree {api readable : List Text} {root method target path : Text}
    (hroot : Pattern.IsLiteral root) (hapi : root ++ "/**" ∈ api)
    (hp : Path.normalize? (pathPart target) = some path)
    (hbelow : path = root ∨ root ++ ['/'] <+: path)
    (hr : ¬(isRead method = true ∧ ∃ q ∈ readable, (Pattern.parse q).accepts path = true)) :
    (ofPatterns api readable).decide method target = .authenticate ↔
      '\n' ∉ path.drop root.length ∨
        ∃ q ∈ api, q ≠ root ++ "/**" ∧ (Pattern.parse q).accepts path = true := by
  have hsub : (Pattern.parse (root ++ "/**")).accepts path = true ↔ '\n' ∉ path.drop root.length := by
    rw [Pattern.accepts_subtree hroot]
    rcases hbelow with rfl | ⟨r, rfl⟩
    · simp
    · simp [Ne.symm]
  rw [decide_of_not_readable hp (by simpa [ofPatterns] using hr), ← hsub]
  simp only [ofPatterns, List.mem_map]
  constructor
  · rintro ⟨_, ⟨q, hq, rfl⟩, ha⟩
    by_cases he : q = root ++ "/**"
    · exact .inl (he ▸ ha)
    · exact .inr ⟨q, hq, he, ha⟩
  · rintro (ha | ⟨q, hq, -, ha⟩)
    · exact ⟨_, ⟨_, hapi, rfl⟩, ha⟩
    · exact ⟨_, ⟨q, hq, rfl⟩, ha⟩

theorem decide_subtree_escaped :
    (ofPatterns ["/file/v1/**".toList] []).decide "POST" "/file/./v1/%C3%A9?x" = .authenticate := by
  have hp : Path.normalize? (pathPart "/file/./v1/%C3%A9?x") = some "/file/v1/é".toList := by
    decide +kernel
  exact (decide_subtree (show Pattern.IsLiteral "/file/v1" by decide +kernel) (by decide +kernel) hp
    (by decide +kernel) (by decide +kernel)).mpr (.inl (by decide +kernel))

theorem decide_subtree_line_feed :
    Path.normalize? (pathPart "/file/v1/a%0Ab") = some "/file/v1/a\nb".toList ∧
      "/file/v1".toList ++ ['/'] <+: "/file/v1/a\nb".toList ∧
      (ofPatterns ["/file/v1/**".toList] []).decide "GET" "/file/v1/a%0Ab" = .free := by
  decide +kernel

end BearerGate.Guard
