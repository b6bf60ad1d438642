import MarkdownModule.Proofs.Loader.Assembly

/-!
# What can fail, and in which order

A loader is built unless two renderers are given or a compiler is missing.  A document is loaded
unless its frontmatter, its rendering or one of its templates fails, and the first failure in this
order is reported.

* `Loader.Conflict`, `Loader.BuildFailure`   why a loader is not built
* `Loader.LoadFailure`                       why a document is not loaded
* `FrameworkBackend.writeComponent`                  the component of a document, written into a module
* `Loader.failures`                          these are the failures, and there are no others
-/

namespace MarkdownModule

def Collaborators.compiler (c : Collaborators) : Framework → Option Collaborator
  | .vue => c.vueCompiler
  | .react => c.reactCompiler

def LoaderOptions.frameworkOptions (o : LoaderOptions) : Framework → FrameworkOptions
  | .vue => o.vue
  | .react => o.react

def LoaderOptions.setsRenderer (o : LoaderOptions) : Bool := o.renderer.any (!·.isEmpty)

namespace Loader

/-! ## causes -/

section
variable (o : LoaderOptions) (c : Collaborators)

/-- how many of a function, an instance and options a caller gives for rendering -/
def suppliedRenderers : Nat :=
  [c.renderFunction.isSome, c.renderer.isSome, o.setsRenderer].count true

/-- what excludes what, a second renderer before options -/
inductive Conflict : RendererConflict → Prop where
  | renderer (hf : c.renderFunction.isSome = true) (hr : c.renderer.isSome = true) :
      Conflict .renderer
  | options (hf : c.renderFunction.isSome = true) (hr : c.renderer = none)
      (ho : o.setsRenderer = true) : Conflict .options
  | optionsBesideRenderer (hf : c.renderFunction = none) (hr : c.renderer.isSome = true)
      (ho : o.setsRenderer = true) : Conflict .optionsBesideRenderer

/-- why a loader is not built: a conflict, then the compiler for Vue, then the one for React -/
inductive BuildFailure : LoadError → Prop where
  | conflict {g : RendererConflict} (h : Conflict o c g) : BuildFailure (.conflictingRenderers g)
  | vue (hone : suppliedRenderers o c ≤ 1) (ha : o.modes.contains .vue = true)
      (hv : c.vueCompiler = none) : BuildFailure (.missingCompiler .vue)
  | react (hone : suppliedRenderers o c ≤ 1)
      (hbefore : o.modes.contains .vue = true → c.vueCompiler.isSome = true)
      (ha : o.modes.contains .react = true) (hr : c.reactCompiler = none) :
      BuildFailure (.missingCompiler .react)

/-- the body is rendered by the one renderer that is given -/
def Renders (body html : Text) : Prop :=
  ∃ channel, RenderChannel.resolve c.renderFunction c.renderer o.renderer = .ok channel ∧
    channel.render body = .ok html

/-- why there is no component for an active framework: the template, or the caller's compiler -/
inductive ComponentFailure (f : Framework) (html : Text) : LoadError → Prop where
  | template {e : LoadError} (ha : o.modes.contains f.mode = true)
      (h : f.template (o.frameworkOptions f).rootClass html = .error e) : ComponentFailure f html e
  | compiler {t words : Text} {compile : Collaborator} (ha : o.modes.contains f.mode = true)
      (hc : c.compiler f = some compile)
      (ht : f.template (o.frameworkOptions f).rootClass html = .ok t)
      (h : compile t = .error words) : ComponentFailure f html (.template words)

/-- why a document is not loaded: the frontmatter, then the renderer, then Vue, then React -/
inductive LoadFailure (source : Text) : LoadError → Prop where
  | frontmatter {cause : FrontmatterError} (h : Frontmatter.extract source = .error cause) :
      LoadFailure source (.frontmatter cause)
  | renderFunction {x : Frontmatter.Extraction} {render : Collaborator} {words : Text}
      (hx : Frontmatter.extract source = .ok x) (hn : o.modes.needsHtml = true)
      (hf : c.renderFunction = some render) (h : render x.body = .error words) :
      LoadFailure source (.renderer words)
  | renderer {x : Frontmatter.Extraction} {render : Text → Except LoadError Text} {e : LoadError}
      (hx : Frontmatter.extract source = .ok x) (hn : o.modes.needsHtml = true)
      (hr : c.renderer = some render) (h : render x.body = .error e) : LoadFailure source e
  | vue {x : Frontmatter.Extraction} {html : Text} {e : LoadError}
      (hx : Frontmatter.extract source = .ok x) (hhtml : Renders o c x.body html)
      (h : ComponentFailure o c .vue html e) : LoadFailure source e
  | react {x : Frontmatter.Extraction} {html : Text} {e : LoadError}
      (hx : Frontmatter.extract source = .ok x) (hhtml : Renders o c x.body html)
      (hbefore : ∀ e', ¬ ComponentFailure o c .vue html e')
      (h : ComponentFailure o c .react html e) : LoadFailure source e

end

/-! ## building -/

section
variable {o : LoaderOptions} {c : Collaborators}

theorem resolve_error_iff {e : LoadError} :
    RenderChannel.resolve c.renderFunction c.renderer o.renderer = .error e ↔
      ∃ g, Conflict o c g ∧ e = .conflictingRenderers g := by
  constructor
  · intro h
    unfold RenderChannel.resolve at h
    dsimp only at h
    split at h
    · next hf hr =>
      exact ⟨_, .renderer (by rw [hf]; rfl) (by rw [hr]; rfl), (Except.error.inj h).symm⟩
    · next hf hr =>
      split at h
      · next ho => exact ⟨_, .options (by rw [hf]; rfl) hr ho, (Except.error.inj h).symm⟩
      · exact nomatch h
    · next hf hr =>
      split at h
      · next ho =>
        exact ⟨_, .optionsBesideRenderer hf (by rw [hr]; rfl) ho, (Except.error.inj h).symm⟩
      · exact nomatch h
    · exact nomatch h
  · rintro ⟨g, hg, rfl⟩
    unfold RenderChannel.resolve
    cases hg with
    | renderer hf hr =>
      obtain ⟨f, hf⟩ := Option.isSome_iff_exists.1 hf
      obtain ⟨r, hr⟩ := Option.isSome_iff_exists.1 hr
      rw [hf, hr]
    | options hf hr ho =>
      obtain ⟨f, hf⟩ := Option.isSome_iff_exists.1 hf
      rw [hf, hr]
      exact if_pos ho
    | optionsBesideRenderer hf hr ho =>
      obtain ⟨r, hr⟩ := Option.isSome_iff_exists.1 hr
      rw [hf, hr]
      exact if_pos ho

/-- two renderers are given exactly when they exclude each other -/
theorem exists_conflict_iff : (∃ g, Conflict o c g) ↔ 2 ≤ suppliedRenderers o c := by
  unfold suppliedRenderers
  constructor
  · rintro ⟨g, hg⟩
    cases hg with
    | renderer hf hr =>
      rw [hf, hr]
      cases o.setsRenderer <;> decide
    | options hf hr ho =>
      rw [hf, hr, ho]
      decide
    | optionsBesideRenderer hf hr ho =>
      rw [hf, hr, ho]
      decide
  · intro h
    cases hf : c.renderFunction.isSome with
    | true =>
      cases hr : c.renderer.isSome with
      | true => exact ⟨_, .renderer hf hr⟩
      | false =>
        cases ho : o.setsRenderer with
        | true => exact ⟨_, .options hf (Option.not_isSome_iff_eq_none.1 (by rw [hr]; decide)) ho⟩
        | false =>
          rw [hf, hr, ho] at h
          exact absurd h (by decide)
    | false =>
      have hnone := Option.not_isSome_iff_eq_none.1 (show ¬ c.renderFunction.isSome = true by
        rw [hf]; decide)
      cases hr : c.renderer.isSome with
      | true =>
        cases ho : o.setsRenderer with
        | true => exact ⟨_, .optionsBesideRenderer hnone hr ho⟩
        | false =>
          rw [hf, hr, ho] at h
          exact absurd h (by decide)
      | false =>
        rw [hf, hr] at h
        cases ho : o.setsRenderer <;> rw [ho] at h <;> exact absurd h (by decide)

/-- a renderer is chosen exactly when at most one is given -/
theorem exists_resolve_iff :
    (∃ channel, RenderChannel.resolve c.renderFunction c.renderer o.renderer = .ok channel) ↔
      suppliedRenderers o c ≤ 1 := by
  have hnot : (∃ channel, RenderChannel.resolve c.renderFunction c.renderer o.renderer =
      .ok channel) ↔ ¬ ∃ g, Conflict o c g := by
    cases h : RenderChannel.resolve c.renderFunction c.renderer o.renderer with
    | error e =>
      obtain ⟨g, hg, -⟩ := resolve_error_iff.1 h
      exact iff_of_false (fun ⟨_, h⟩ => nomatch h) fun hn => hn ⟨g, hg⟩
    | ok channel =>
      refine iff_of_true ⟨channel, rfl⟩ fun ⟨g, hg⟩ => ?_
      have herror := resolve_error_iff.2 ⟨g, hg, rfl⟩
      rw [h] at herror
      exact nomatch herror
  rw [hnot, exists_conflict_iff, Nat.not_le, Nat.lt_succ_iff]

theorem backend_error_iff {modes : ModeSet} {f : Framework} {fo : FrameworkOptions}
    {compiler : Option Collaborator} {e : LoadError} :
    backend? modes f fo compiler = .error e ↔
      modes.contains f.mode = true ∧ compiler = none ∧ e = .missingCompiler f.mode := by
  unfold backend?
  cases modes.contains f.mode with
  | false => simp
  | true =>
    cases compiler with
    | none => simp [eq_comm]
    | some compile => simp

theorem backend_ok_iff {modes : ModeSet} {f : Framework} {fo : FrameworkOptions}
    {compiler : Option Collaborator} :
    (∃ bs, backend? modes f fo compiler = .ok bs) ↔
      (modes.contains f.mode = true → compiler.isSome = true) := by
  unfold backend?
  cases modes.contains f.mode with
  | false => simp
  | true => cases compiler <;> simp

/-- **A loader is not built for a conflict, or for a missing compiler.** -/
theorem build_error_iff {e : LoadError} : build o c = .error e ↔ BuildFailure o c e := by
  show (RenderChannel.resolve c.renderFunction c.renderer o.renderer).bind _ = _ ↔ _
  rw [error_of_bind_iff, resolve_error_iff]
  constructor
  · rintro (⟨g, hg, rfl⟩ | ⟨channel, hchannel, h⟩)
    · exact .conflict hg
    · have hone := exists_resolve_iff.1 ⟨channel, hchannel⟩
      rcases error_of_bind_iff.1 h with h | ⟨vs, hvs, h⟩
      · obtain ⟨ha, hv, rfl⟩ := backend_error_iff.1 h
        exact .vue hone ha hv
      · rcases error_of_bind_iff.1 h with h | ⟨rs, -, h⟩
        · obtain ⟨ha, hr, rfl⟩ := backend_error_iff.1 h
          exact .react hone (backend_ok_iff.1 ⟨vs, hvs⟩) ha hr
        · exact nomatch h
  · intro h
    cases h with
    | conflict hg => exact .inl ⟨_, hg, rfl⟩
    | vue hone ha hv =>
      obtain ⟨channel, hchannel⟩ := exists_resolve_iff.2 hone
      exact .inr ⟨channel, hchannel, error_of_bind_iff.2
        (.inl (backend_error_iff.2 ⟨ha, hv, rfl⟩))⟩
    | react hone hbefore ha hr =>
      obtain ⟨channel, hchannel⟩ := exists_resolve_iff.2 hone
      obtain ⟨vs, hvs⟩ : ∃ vs, backend? o.modes .vue o.vue c.vueCompiler = .ok vs :=
        backend_ok_iff.2 hbefore
      exact .inr ⟨channel, hchannel, error_of_bind_iff.2 (.inr ⟨vs, hvs, error_of_bind_iff.2
        (.inl (backend_error_iff.2 ⟨ha, hr, rfl⟩))⟩)⟩

/-- some failure is there exactly when two renderers are given or a compiler is missing -/
theorem exists_buildFailure_iff : (∃ e, BuildFailure o c e) ↔
    2 ≤ suppliedRenderers o c ∨ ∃ f, o.modes.contains f.mode = true ∧ c.compiler f = none := by
  constructor
  · rintro ⟨e, h⟩
    cases h with
    | conflict hg => exact .inl (exists_conflict_iff.1 ⟨_, hg⟩)
    | vue hone ha hv => exact .inr ⟨.vue, ha, hv⟩
    | react hone hbefore ha hr => exact .inr ⟨.react, ha, hr⟩
  · intro h
    by_cases hone : suppliedRenderers o c ≤ 1
    · obtain ⟨f, ha, hf⟩ := h.resolve_left (by omega)
      by_cases hv : o.modes.contains .vue = true ∧ c.vueCompiler = none
      · exact ⟨_, .vue hone hv.1 hv.2⟩
      · have hbefore : o.modes.contains .vue = true → c.vueCompiler.isSome = true := fun hm =>
          Option.isSome_iff_ne_none.2 fun hn => hv ⟨hm, hn⟩
        cases f with
        | vue => exact absurd ⟨ha, hf⟩ hv
        | react => exact ⟨_, .react hone hbefore ha hf⟩
    · obtain ⟨g, hg⟩ := exists_conflict_iff.2 (Nat.lt_of_not_le hone)
      exact ⟨_, .conflict hg⟩

end

/-! ## loading -/

section
variable {o : LoaderOptions} {c : Collaborators} {l : Loader}

theorem compiled_error_iff {f : Framework} {html : Text} {e : LoadError}
    (hc : o.modes.contains f.mode = true → (c.compiler f).isSome = true) :
    compiled? o.modes f (o.frameworkOptions f) (c.compiler f) html = .error e ↔
      ComponentFailure o c f html e := by
  unfold compiled?
  constructor
  · intro h
    split at h
    · next ha =>
      obtain ⟨compile, hcompile⟩ := Option.isSome_iff_exists.1 (hc ha)
      rw [hcompile] at h
      rcases error_of_bind_iff.1 h with h | ⟨t, ht, h⟩
      · exact .template ha h
      · obtain ⟨words, hwords, rfl⟩ := error_of_mapError_iff.1 h
        exact .compiler ha hcompile ht hwords
    · exact nomatch h
  · intro h
    cases h with
    | template ha h =>
      obtain ⟨compile, hcompile⟩ := Option.isSome_iff_exists.1 (hc ha)
      rw [if_pos ha, hcompile]
      exact error_of_bind_iff.2 (.inl h)
    | compiler ha hcompile ht h =>
      rw [if_pos ha, hcompile]
      exact error_of_bind_iff.2 (.inr ⟨_, ht, error_of_mapError_iff.2 ⟨_, h, rfl⟩⟩)

theorem compiled_ok_iff {f : Framework} {html : Text}
    (hc : o.modes.contains f.mode = true → (c.compiler f).isSome = true) :
    (∃ t, compiled? o.modes f (o.frameworkOptions f) (c.compiler f) html = .ok t) ↔
      ∀ e, ¬ ComponentFailure o c f html e := by
  cases h : compiled? o.modes f (o.frameworkOptions f) (c.compiler f) html with
  | error e => exact iff_of_false (fun ⟨_, h⟩ => nomatch h) fun hn => hn e ((compiled_error_iff hc).1 h)
  | ok t =>
    refine iff_of_true ⟨t, rfl⟩ fun e he => ?_
    rw [(compiled_error_iff hc).2 he] at h
    exact nomatch h

/-- a loader that is built has its compilers -/
theorem compiler_of_build (hl : build o c = .ok l) (f : Framework)
    (ha : o.modes.contains f.mode = true) : (c.compiler f).isSome = true := by
  obtain ⟨-, -, -, vs, rs, hvue, hreact, -⟩ := of_build hl
  cases f with
  | vue => exact backend_ok_iff.1 ⟨vs, hvue⟩ ha
  | react => exact backend_ok_iff.1 ⟨rs, hreact⟩ ha

/-- the renderer is the one that is given, or the built-in one -/
theorem channel_of_resolve {function : Option Collaborator}
    {inst : Option (Text → Except LoadError Text)} {options : Option RendererOptions}
    {channel : RenderChannel} (h : RenderChannel.resolve function inst options = .ok channel) :
    (∃ f, function = some f ∧ inst = none ∧ channel = .function f) ∨
      (∃ r, function = none ∧ inst = some r ∧ channel = .renderer r) ∨
        function = none ∧ inst = none ∧ channel = .builtin (options.getD {}) := by
  unfold RenderChannel.resolve at h
  dsimp only at h
  split at h
  · exact nomatch h
  · next f =>
    split at h
    · exact nomatch h
    · exact .inl ⟨f, rfl, rfl, (Except.ok.inj h).symm⟩
  · next r =>
    split at h
    · exact nomatch h
    · exact .inr (.inl ⟨r, rfl, rfl, (Except.ok.inj h).symm⟩)
  · exact .inr (.inr ⟨rfl, rfl, (Except.ok.inj h).symm⟩)

/-- rendering fails when the function or the instance that is given fails -/
theorem render_error_iff (hl : build o c = .ok l) {body : Text} {e : LoadError} :
    l.channel.render body = .error e ↔
      (∃ f words, c.renderFunction = some f ∧ f body = .error words ∧ e = .renderer words) ∨
        ∃ r, c.renderer = some r ∧ r body = .error e := by
  rcases channel_of_resolve (of_build hl).2.2.1 with ⟨f, hf, hr, hch⟩ | ⟨r, hf, hr, hch⟩ | ⟨hf, hr, hch⟩
  · rw [hch, hf, hr]
    simp [RenderChannel.render, error_of_mapError_iff]
  · rw [hch, hf, hr]
    simp [RenderChannel.render]
  · rw [hch, hf, hr]
    simp [RenderChannel.render]

theorem renders_iff (hl : build o c = .ok l) {body html : Text} :
    Renders o c body html ↔ l.channel.render body = .ok html := by
  have hchannel := (of_build hl).2.2.1
  constructor
  · rintro ⟨channel, hch, h⟩
    rw [hchannel] at hch
    rw [Except.ok.inj hch]
    exact h
  · exact fun h => ⟨l.channel, hchannel, h⟩

theorem ComponentFailure.needsHtml {f : Framework} {html : Text} {e : LoadError}
    (h : ComponentFailure o c f html e) : o.modes.needsHtml = true := by
  have ha : o.modes.contains f.mode = true := by
    cases h with
    | template ha _ => exact ha
    | compiler ha _ _ _ => exact ha
  cases f with
  | vue => exact ModeSet.needsHtml_of_contains (m := .vue) (by decide) ha
  | react => exact ModeSet.needsHtml_of_contains (m := .react) (by decide) ha

theorem LoadFailure.of_gather (hl : build o c = .ok l) {source : Text} {e : LoadError}
    (h : gather o c l.channel source = .error e) : LoadFailure o c source e := by
  rcases error_of_bind_iff.1 h with h | ⟨x, hx, h⟩
  · obtain ⟨cause, hcause, rfl⟩ := error_of_mapError_iff.1 h
    exact .frontmatter hcause
  · have hx := ok_of_mapError hx
    rcases error_of_bind_iff.1 h with h | ⟨html, hhtml, h⟩
    · unfold rendered? at h
      split at h
      · next hn =>
        rcases (render_error_iff hl).1 h with ⟨f, words, hf, hw, rfl⟩ | ⟨r, hr, hw⟩
        · exact .renderFunction hx hn hf hw
        · exact .renderer hx hn hr hw
      · exact nomatch h
    · have hrenders {f e} (hfail : ComponentFailure o c f html e) : Renders o c x.body html := by
        unfold rendered? at hhtml
        rw [if_pos hfail.needsHtml] at hhtml
        exact (renders_iff hl).2 hhtml
      rcases error_of_bind_iff.1 h with h | ⟨v, hv, h⟩
      · have hfail := (compiled_error_iff (f := .vue) (compiler_of_build hl .vue)).1 h
        exact .vue hx (hrenders hfail) hfail
      · rcases error_of_bind_iff.1 h with h | ⟨r, -, h⟩
        · have hfail := (compiled_error_iff (f := .react) (compiler_of_build hl .react)).1 h
          have hbefore := (compiled_ok_iff (f := .vue) (compiler_of_build hl .vue)).1 ⟨v, hv⟩
          exact .react hx (hrenders hfail) hbefore hfail
        · exact nomatch h

theorem LoadFailure.gather_eq (hl : build o c = .ok l) {source : Text} {e : LoadError}
    (h : LoadFailure o c source e) : gather o c l.channel source = .error e := by
  have hstart {x} (hx : Frontmatter.extract source = .ok x) :
      (Frontmatter.extract source).mapError LoadError.frontmatter = .ok x := by
    rw [hx]
    rfl
  have hrendered {body} (hn : o.modes.needsHtml = true) :
      rendered? o.modes l.channel body = l.channel.render body := if_pos hn
  cases h with
  | frontmatter h => exact error_of_bind_iff.2 (.inl (error_of_mapError_iff.2 ⟨_, h, rfl⟩))
  | renderFunction hx hn hf h =>
    refine error_of_bind_iff.2 (.inr ⟨_, hstart hx, error_of_bind_iff.2 (.inl ?_)⟩)
    rw [hrendered hn]
    exact (render_error_iff hl).2 (.inl ⟨_, _, hf, h, rfl⟩)
  | renderer hx hn hr h =>
    refine error_of_bind_iff.2 (.inr ⟨_, hstart hx, error_of_bind_iff.2 (.inl ?_)⟩)
    rw [hrendered hn]
    exact (render_error_iff hl).2 (.inr ⟨_, hr, h⟩)
  | vue hx hhtml h =>
    have hhtml := (hrendered h.needsHtml).trans ((renders_iff hl).1 hhtml)
    refine error_of_bind_iff.2 (.inr ⟨_, hstart hx, error_of_bind_iff.2 (.inr ⟨_, hhtml, ?_⟩)⟩)
    exact error_of_bind_iff.2 (.inl ((compiled_error_iff (compiler_of_build hl .vue)).2 h))
  | react hx hhtml hbefore h =>
    have hhtml := (hrendered h.needsHtml).trans ((renders_iff hl).1 hhtml)
    obtain ⟨v, hv⟩ := (compiled_ok_iff (compiler_of_build hl .vue)).2 hbefore
    refine error_of_bind_iff.2 (.inr ⟨_, hstart hx, error_of_bind_iff.2 (.inr ⟨_, hhtml, ?_⟩)⟩)
    refine error_of_bind_iff.2 (.inr ⟨v, hv, error_of_bind_iff.2 (.inl ?_)⟩)
    exact (compiled_error_iff (compiler_of_build hl .react)).2 h

/-- **A document is not loaded for its frontmatter, its rendering or a template.** -/
theorem load_error_iff (hl : build o c = .ok l) {source path : Text} {e : LoadError} :
    l.load source path = .error e ↔ LoadFailure o c source e := by
  rw [load_eq_gather hl, error_of_map_iff]
  exact ⟨LoadFailure.of_gather hl, LoadFailure.gather_eq hl⟩

end

/-! ## what is not needed -/

/-- a loader that needs no rendering uses neither renderer nor frameworks nor registry -/
theorem load_eq_of_modes {l l' : Loader} (hn : l.modes.needsHtml = false) (hm : l'.modes = l.modes)
    (source path : Text) : l'.load source path = l.load source path := by
  unfold load
  cases Frontmatter.extract source with
  | error cause => rfl
  | ok e =>
    show (l'.html? e.body).bind _ = (l.html? e.body).bind _
    unfold html? addPlain
    rw [hm, hn]
    rfl

end Loader

/-! ## components in a module -/

/-- the component of a document, written into a module step by step -/
def FrameworkBackend.writeComponent (b : FrameworkBackend) (html : Text) (rs : List ComponentReference) :
    ExceptT LoadError (StateM Script.Module) Unit := do
  let template ← ExceptT.mk (pure (b.framework.template b.rootClass html))
  let compiled ← ExceptT.mk (pure ((b.compile template).mapError .template))
  modify fun m => b.framework.addCompiled m compiled rs

/-- the module is written at the last step, when nothing can fail any more -/
theorem FrameworkBackend.run_writeComponent (b : FrameworkBackend) (html : Text)
    (rs : List ComponentReference) (m : Script.Module) :
    (b.writeComponent html rs).run.run m =
      match b.addComponent m html rs with
      | .ok n => (.ok (), n)
      | .error e => (.error e, m) := by
  unfold writeComponent addComponent compiled
  cases b.framework.template b.rootClass html with
  | error e => rfl
  | ok t =>
    show (ExceptT.mk (pure ((b.compile t).mapError LoadError.template)) >>= _ :
      ExceptT LoadError (StateM Script.Module) Unit).run.run m =
        match ((b.compile t).mapError LoadError.template).map _ with
        | .ok n => (.ok (), n)
        | .error e => (.error e, m)
    cases b.compile t with
    | error words => rfl
    | ok expression => rfl

namespace Loader

/-- **What can fail, and in which order.**  A loader is not built exactly when two renderers are given
or an active framework has no compiler; a document is not loaded exactly when its frontmatter, its
rendering or the component of an active framework fails; the first cause in order is reported, in the
words of the function that failed.  A loader that needs no rendering calls no function at all, and a
component that fails leaves the module as it was. -/
theorem failures (o : LoaderOptions) (c : Collaborators) :
    ((∃ e, build o c = .error e) ↔
        2 ≤ suppliedRenderers o c ∨
          ∃ f, o.modes.contains f.mode = true ∧ c.compiler f = none) ∧
      (∀ e, build o c = .error e ↔ BuildFailure o c e) ∧
      (∀ l, build o c = .ok l → ∀ source path e,
        l.load source path = .error e ↔ LoadFailure o c source e) ∧
      (∀ words, (LoadError.renderer words).message = words ∧
        (LoadError.template words).message = words) ∧
      (∀ l l' : Loader, l.modes.needsHtml = false → l'.modes = l.modes → ∀ source path,
        l'.load source path = l.load source path) ∧
      ∀ (b : FrameworkBackend) html rs m,
        (b.writeComponent html rs).run.run m =
            (match b.addComponent m html rs with
              | .ok n => (.ok (), n)
              | .error e => (.error e, m)) ∧
          ∀ e n, (b.writeComponent html rs).run.run m = (.error e, n) → n = m := by
  refine ⟨?_, fun e => build_error_iff, fun l hl source path e => load_error_iff hl,
    fun words => ⟨rfl, rfl⟩, fun l l' hn hm source path => load_eq_of_modes hn hm source path,
    fun b html rs m => ⟨b.run_writeComponent html rs m, fun e n h => ?_⟩⟩
  · rw [← exists_buildFailure_iff]
    exact exists_congr fun e => build_error_iff
  · rw [b.run_writeComponent html rs m] at h
    split at h
    · exact nomatch (Prod.mk.inj h).1
    · exact (Prod.mk.inj h).2.symm

/-- Of two compilers that fail, the one for Vue is reported. -/
theorem failures_vue :
    let o : LoaderOptions := { mode := some ["react-component".toList, "vue-component".toList] }
    let c : Collaborators := {
      renderFunction := some fun body => .ok body
      vueCompiler := some fun _ => .error "v".toList
      reactCompiler := some fun _ => .error "r".toList }
    ∃ l, build o c = .ok l ∧ l.load "a".toList "p.md".toList = .error (.template "v".toList) := by
  intro o c
  have hmodes : o.modes.contains .vue = true ∧ o.modes.contains .react = true := by decide +kernel
  have hone : suppliedRenderers o c ≤ 1 := by decide +kernel
  cases hl : build o c with
  | error e =>
    exfalso
    rcases (failures o c).1.1 ⟨e, hl⟩ with h | ⟨f, -, hf⟩
    · omega
    · cases f <;> exact nomatch hf
  | ok l =>
    refine ⟨l, rfl, ((failures o c).2.2.1 l hl _ _ _).2 ?_⟩
    have hx : Frontmatter.extract "a".toList = .ok ⟨.emptyObject, "a".toList⟩ := by cbv
    exact .vue hx ⟨_, rfl, rfl⟩ (.compiler hmodes.1 rfl rfl rfl)

end Loader

end MarkdownModule
