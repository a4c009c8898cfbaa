import SourceDoc.Config.Basic
import SourceDoc.Proofs.List

/-!
# Configurations that can be used

A configuration that was loaded names at least one format, and only formats that there are (`Config.load_formats`).
-/

namespace SourceDoc

namespace Config

theorem checkFormats_ok {names : List Text} {u : Unit} (h : checkFormats names = .ok u) :
    ∀ name ∈ names, (Format.ofName? name).isSome := by
  induction names with
  | nil => simp
  | cons name rest ih =>
    rw [checkFormats] at h
    split at h
    · rename_i hname
      exact List.forall_mem_cons.mpr ⟨hname, ih h⟩
    · cases h

/-- A configuration that a run can use. -/
structure Usable (c : Config) : Prop where
  formats_ne : c.formats ≠ []
  formats : ∀ name ∈ c.formats, (Format.ofName? name).isSome
  style : c.style ∈ styles
  provider : c.provider ∈ providers
  workers : ∀ n, c.workers? = some n → 1 ≤ n

/-- The end of the check, after the formats. -/
theorem checkRest_ok {c c' : Config}
    (h : (do
      if !styles.contains c.style then .error (.badStyle c.style)
      if !providers.contains c.provider then .error (.badProvider c.provider)
      if c.workers?.any (· < 1) then .error .badWorkers
      return c : Except ConfigError Config) = .ok c') :
    c' = c ∧ c.style ∈ styles ∧ c.provider ∈ providers ∧ ∀ n, c.workers? = some n → 1 ≤ n := by
  by_cases hstyle : c.style ∈ styles
  · by_cases hprovider : c.provider ∈ providers
    · by_cases hworkers : c.workers?.any (· < 1) = true
      · simp [hstyle, hprovider, hworkers, bind, Except.bind] at h
      · simp only [bind, Except.bind, pure, Except.pure, List.contains_iff_mem.mpr hstyle,
          List.contains_iff_mem.mpr hprovider, hworkers, Bool.not_true, Bool.false_eq_true, if_false] at h
        cases h
        refine ⟨rfl, hstyle, hprovider, ?_⟩
        intro n hn
        rw [hn, Option.any_some, decide_eq_true_eq] at hworkers
        omega
    · simp [hstyle, hprovider, bind, Except.bind] at h
  · simp [hstyle, bind, Except.bind] at h

/-- The check lets a configuration through as it is. -/
theorem check_ok {c c' : Config} (h : c.check = .ok c') : c' = c ∧ c.Usable := by
  unfold check at h
  by_cases hall : c.format = "all".toList
  · have hformats : c.formats = Format.all.map Format.name := by rw [formats, if_pos hall]
    rw [if_neg (not_not_intro hall)] at h
    obtain ⟨hsame, hstyle, hprovider, hworkers⟩ := checkRest_ok h
    exact ⟨hsame, by rw [hformats]; decide, by rw [hformats]; decide, hstyle, hprovider, hworkers⟩
  · rw [if_pos hall] at h
    by_cases hnone : c.formats = []
    · rw [if_pos hnone] at h
      cases h
    · rw [if_neg hnone] at h
      obtain ⟨u, hcheck, h⟩ := exists_of_bind_ok h
      obtain ⟨hsame, hstyle, hprovider, hworkers⟩ := checkRest_ok h
      exact ⟨hsame, hnone, checkFormats_ok hcheck, hstyle, hprovider, hworkers⟩

/-- **A configuration that was loaded has formats,** all of which there are. -/
theorem load_formats {t : FileTree} {current : Path} {p? : Option Path} {top : Layer} {c : Config}
    (h : load t current p? top = .ok c) : c.formats ≠ [] ∧ ∀ name ∈ c.formats, (Format.ofName? name).isSome := by
  have hlast : ∀ {c' : Config}, (do (← c'.apply (top.filter fun m => !m.2.isNull) current).check) = .ok c →
      c.formats ≠ [] ∧ ∀ name ∈ c.formats, (Format.ofName? name).isSome := by
    intro c' hc
    obtain ⟨whole, -, hc⟩ := exists_of_bind_ok hc
    obtain ⟨rfl, husable⟩ := check_ok hc
    exact ⟨husable.formats_ne, husable.formats⟩
  unfold load at h
  cases p? with
  | none => exact hlast h
  | some p =>
    dsimp only at h
    split at h
    · exact hlast h
    · obtain ⟨text, -, h⟩ := exists_of_bind_ok h
      obtain ⟨layer, -, h⟩ := exists_of_bind_ok h
      obtain ⟨ofFile, -, h⟩ := exists_of_bind_ok h
      exact hlast h

end Config

end SourceDoc
