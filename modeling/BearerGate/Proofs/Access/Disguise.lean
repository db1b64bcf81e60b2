import BearerGate.Proofs.Access.Canonical

namespace BearerGate.Path

theorem segments?_append (a b : Text) :
    segments? (a ++ '/' :: b) = (segments? a).bind fun left => (segments? b).map (left ++ ·) := by
  have hslash : isForbidden '/' = false := by decide
  have hread : Utf8.decode? (Percent.decode a ++ 47 :: Percent.decode b) =
      (Utf8.decode? (Percent.decode a)).bind fun u => (Utf8.decode? (Percent.decode b)).map (u ++ '/' :: ·) :=
    Utf8.decode?_append_cons (c := '/') (by decide) _ _
  rw [segments?, segments?, segments?, Percent.decode_append_slash, hread]
  cases Utf8.decode? (Percent.decode a) with
  | none => rfl
  | some u =>
      cases Utf8.decode? (Percent.decode b) with
      | none => cases hu : u.any isForbidden <;> simp [Option.filter_some, hu]
      | some v =>
          have hany : (u ++ '/' :: v).any isForbidden = (u.any isForbidden || v.any isForbidden) := by
            rw [List.any_append, List.any_cons, hslash, Bool.false_or]
          simp only [Option.bind_some, Option.map_some, Option.filter_some, hany]
          cases u.any isForbidden with
          | true => rfl
          | false =>
              cases v.any isForbidden with
              | true => rfl
              | false => exact congrArg some (List.splitOn_append_cons_self u v)

theorem segments?_of_isPlain {s : Text} (hplain : IsPlain s) (hslash : '/' ∉ s) : segments? s = some [s] :=
  segments?_eq_some_iff.mpr ⟨s, Percent.decode_of_not_mem fun h => hplain _ h List.mem_cons_self, hplain,
    List.splitOn_eq_singleton hslash⟩

theorem normalize?_detour {middle : Text} {segments : List Text} (hread : segments? middle = some segments)
    (hwalk : ∀ kept rest, resolve? kept (segments ++ rest) = resolve? kept rest) (a b : Text) :
    normalize? (a ++ '/' :: (middle ++ '/' :: b)) = normalize? (a ++ '/' :: b) := by
  simp only [normalize?_eq, segments?_append, hread]
  cases segments? a with
  | none => rfl
  | some left =>
      cases segments? b with
      | none => rfl
      | some right => simp only [Option.bind_some, Option.map_some, resolve?_append [] left, hwalk]

/-- Neither escapes nor detours make another path. -/
theorem normalize?_disguised (r r' a b s : Text) :
    ('%' ∉ r → Percent.Disguised r r' → normalize? r' = normalize? r) ∧
      (IsOrdinary s → IsPlain s → '/' ∉ s →
        normalize? (a ++ '/' :: (s ++ "/../".toList ++ b)) = normalize? (a ++ '/' :: b)) ∧
      normalize? (a ++ "/./".toList ++ b) = normalize? (a ++ '/' :: b) ∧
      normalize? (a ++ "//".toList ++ b) = normalize? (a ++ '/' :: b) := by
  have hup : segments? ['.', '.'] = some [['.', '.']] := segments?_of_isPlain (by decide) (by decide)
  have hdot : segments? ['.'] = some [['.']] := segments?_of_isPlain (by decide) (by decide)
  have hempty : segments? [] = some [[]] := segments?_of_isPlain (by decide) (by decide)
  refine ⟨fun hr hdisguised => ?_, fun hs hplain hslash => ?_, ?_, ?_⟩
  · rw [normalize?, normalize?, hdisguised.decode_eq hr, Percent.decode_of_not_mem hr]
  · have hread : segments? (s ++ '/' :: ['.', '.']) = some [s, ['.', '.']] := by
      rw [segments?_append, segments?_of_isPlain hplain hslash, hup]
      rfl
    have hwalk (kept rest) : resolve? kept ([s, ['.', '.']] ++ rest) = resolve? kept rest :=
      (resolve?_down hs).trans resolve?_up
    simpa using normalize?_detour hread hwalk a b
  · simpa using normalize?_detour hdot (fun kept rest => resolve?_stay (.inr rfl)) a b
  · simpa using normalize?_detour hempty (fun kept rest => resolve?_stay (.inl rfl)) a b

theorem normalize?_disguised_file :
    normalize? "/%4Bf%c3%A9" = normalize? "/Kfé" ∧
      normalize? "/file/%2/v1/../%2e%2e" = normalize? "/file/%2/%2e%2e" := by
  have hdisguised : Percent.Disguised "/Kfé" "/%4Bf%c3%A9" := by
    refine .plain '/' (.escaped 'K' ["%4B"] (.cons ?_ .nil)
      (.plain 'f' (.escaped 'é' ["%c3", "%A9"] (.cons ?_ (.cons ?_ .nil)) .nil)))
    · exact ⟨'4', 'B', rfl, rfl, rfl⟩
    · exact ⟨'c', '3', rfl, rfl, rfl⟩
    · exact ⟨'A', '9', rfl, rfl, rfl⟩
  have h := normalize?_disguised "/Kfé" "/%4Bf%c3%A9" "/file/%2" "%2e%2e" "v1"
  exact ⟨h.1 (by decide) hdisguised, h.2.1 (by decide) (by decide) (by decide)⟩

end BearerGate.Path
