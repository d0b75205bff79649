import TsToPhp.Diagnostic.SourceCache
import TsToPhp.Proofs.FaultsStatement

/-! Every report points at the source of a node, and the same text is found there by the printer and
by whoever shows the report. -/

namespace TsToPhp

namespace Source

variable {s : Source} {span : Span}

theorem region_of_ne_none (h : span ≠ .none) :
    s.region span = ⟨s.file, span.start - s.start, span.stop - s.start⟩ :=
  if_neg h

theorem region_isDummy (hfile : s.file ≠ Region.noFile) (h : span ≠ .none) :
    (s.region span).isDummy = false := by
  simpa [region_of_ne_none h, Region.isDummy] using hfile

theorem slice_of_textOf {t : String} (h : s.textOf span = some t) :
    span ≠ .none ∧ Bytes.slice? s.text (span.start - s.start) (span.stop - s.start) = some t := by
  unfold textOf at h
  split at h
  · cases h
  · next hplace => exact ⟨fun hnone => hplace (.inl hnone), h⟩

/-- The printer does not look before the start of the file, where the cache would find the file's
beginning. Wherever the printer finds a text, the cache finds the same. -/
theorem textOf?_region (hfile : s.file ≠ Region.noFile) {cache : SourceCache} {f : SourceFile}
    (hf : cache.file? s.file = some f) (htext : f.text = s.text) {t : String}
    (h : s.textOf span = some t) : cache.textOf? (s.region span) = some t := by
  obtain ⟨hnone, hslice⟩ := slice_of_textOf h
  have hdummy := region_isDummy hfile hnone
  rw [region_of_ne_none hnone] at hdummy ⊢
  simp only [SourceCache.textOf?, SourceCache.regionFile?, hdummy, hf, Bool.false_eq_true, if_false,
    Option.bind_some, SourceFile.slice?, htext]
  exact hslice

end Source

/-- If all nodes of a module have a place, each report of a run points at the place of one of them,
in the file of the module. The text that the printer reads there is the one that the cache holds. -/
theorem reports_point_at_source (isInstance : Expr → Bool) (ruleCopies : Nat) (options : Options)
    (source : Source) (m : Module) (hfile : source.file ≠ Region.noFile)
    (hspans : ∀ span ∈ m.spans, span ≠ .none) :
    ∀ d ∈ (transpileWith isInstance ruleCopies options source m).diagnostics,
      d.region.file = source.file ∧ d.region.isDummy = false ∧
        ∃ span ∈ m.spans, d.region = source.region span ∧
          ∀ t, source.textOf span = some t →
            ∀ (cache : SourceCache) (f : SourceFile), cache.file? source.file = some f →
              f.text = source.text → cache.textOf? d.region = some t := by
  intro d hd
  obtain ⟨span, hspan, hregion⟩ := (transpileWith_faults _ _ _ _ _ d hd).place
  have hnone := hspans span hspan
  replace hregion : d.region = source.region span := hregion
  refine ⟨?_, ?_, span, hspan, hregion, ?_⟩
  · rw [hregion, Source.region_of_ne_none hnone]
  · rw [hregion, Source.region_isDummy hfile hnone]
  · intro t ht cache f hf htext
    rw [hregion]
    exact Source.textOf?_region hfile hf htext ht

/-- `o.prototype;` at the start of its file: the report quotes the access, and the cache finds
it. -/
theorem reports_point_at_source_prototype :
    let m : Module := [.stmt (.expr ⟨1, 13⟩ (.member ⟨1, 12⟩ (.ident ⟨"o", ⟨1, 2⟩⟩)
      (.name ⟨"prototype", ⟨3, 12⟩⟩)))]
    let source : Source := ⟨"o.prototype;", 0, 1⟩
    let cache : SourceCache := (SourceCache.empty.add ⟨"a.ts"⟩ "o.prototype;").1
    (transpileWith (fun _ => false) 1 .default source m).diagnostics =
        [.error .prototypeAccess ⟨0, 0, 11⟩ "o.prototype is not supported."] ∧
      ⟨1, 12⟩ ∈ m.spans ∧ source.textOf ⟨1, 12⟩ = some "o.prototype" ∧
      cache.textOf? ⟨0, 0, 11⟩ = some "o.prototype" := by
  intro m source cache
  have hdiagnostics : (transpileWith (fun _ => false) 1 .default source m).diagnostics =
      [.error .prototypeAccess ⟨0, 0, 11⟩ "o.prototype is not supported."] := by decide
  have hone : ∀ span ∈ m.spans, ⟨0, 0, 11⟩ = source.region span → span = ⟨1, 12⟩ := by decide
  have hrun := reports_point_at_source (fun _ => false) 1 .default source m (by decide) (by decide)
  rw [hdiagnostics] at hrun
  obtain ⟨-, -, span, hspan, hregion, htext⟩ := hrun _ List.mem_cons_self
  obtain rfl := hone span hspan hregion
  have hquoted : source.textOf ⟨1, 12⟩ = some "o.prototype" := by decide
  exact ⟨hdiagnostics, hspan, hquoted, htext _ hquoted cache _ rfl rfl⟩

end TsToPhp
