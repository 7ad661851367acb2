import ModuleSurface.Proofs.Lines

/-! # What a step of a build writes

Two ways to say what a step of a build does, without its state. A step `Prints` pieces when it adds
them to the text and changes nothing else; it `Writes` lines when, at every depth, it adds the lines
of that level and marks the elements it declares. Both compose along the order of steps, with the
failure of the first step that fails, so that the walk is never run on a state again. -/

namespace ModuleSurface

namespace IndentedText

/-- Fragments that are added one list after the other. -/
theorem push_push (text : IndentedText) (first second : List Fragment) :
    (text.push first).push second = text.push (first ++ second) := by
  simp [push]

/-- Adding no fragments changes nothing: `text.push [] = text`. -/
@[simp] theorem push_nil (text : IndentedText) : text.push [] = text := by
  simp [push]

/-- Pushing fragments keeps the unit of indentation:
`(text.push fragments).indentUnit = text.indentUnit`. -/
@[simp] theorem indentUnit_push (text : IndentedText) (fragments : List Fragment) :
    (text.push fragments).indentUnit = text.indentUnit := rfl

/-- Writing the indentation keeps its unit: `text.indent.indentUnit = text.indentUnit`. -/
@[simp] theorem indentUnit_indent (text : IndentedText) :
    text.indent.indentUnit = text.indentUnit := by
  unfold indent; split <;> rfl

/-- Opening a block keeps the unit of indentation:
`(text.openBlock header).indentUnit = text.indentUnit`. -/
@[simp] theorem indentUnit_openBlock (text : IndentedText) (header : List Fragment) :
    (text.openBlock header).indentUnit = text.indentUnit := by
  simp [openBlock, line]

/-- The indentation at a depth is that of the lines of this level, `Line.indentation level`. -/
theorem indent_eq_push {text : IndentedText} {level : Nat} (hdepth : text.depth = level)
    (hunit : text.indentUnit = "  ") : text.indent = text.push (Line.indentation level) := by
  unfold indent Line.indentation
  by_cases h : level = 0
  · simp [hdepth, h]
  · rw [if_neg (by rw [hdepth]; exact_mod_cast h), if_neg h, hdepth, hunit]

/-- A line at a depth is a line of this level, `Line.mk level`. -/
theorem line_eq_push {text : IndentedText} {level : Nat} (hdepth : text.depth = level)
    (hunit : text.indentUnit = "  ") (pieces : List Fragment) :
    text.line pieces = text.push (Line.mk level (pieces ++ [some "\n"])).fragments := by
  rw [line, indent_eq_push hdepth hunit, push_push, push_push]
  rfl

end IndentedText

namespace Build

variable {α β : Type}

/-- **A result that is as expected**: it is good for what was expected, or it is the failure that
was expected. -/
inductive Meets (good : α → BuildState → Prop) :
    Except RenderError α → EStateM.Result RenderError BuildState Unit → Prop
  | ok {a : α} {state : BuildState} (h : good a state) : Meets good (.ok a) (.ok () state)
  | error {cause : RenderError} {state : BuildState} :
    Meets good (.error cause) (.error cause state)

/-- What is good in one sense may be good in another one. -/
theorem Meets.imp {good good' : α → BuildState → Prop} {out : Except RenderError α}
    {result : EStateM.Result RenderError BuildState Unit} (h : Meets good out result)
    (himp : ∀ a state, good a state → good' a state) : Meets good' out result := by
  cases h with
  | ok h => exact .ok (himp _ _ h)
  | error => exact .error

/-- What is good for a value may be good for another one. -/
theorem Meets.map {good : α → BuildState → Prop} {good' : β → BuildState → Prop}
    {out : Except RenderError α} {result : EStateM.Result RenderError BuildState Unit} {f : α → β}
    (h : Meets good out result) (himp : ∀ a state, good a state → good' (f a) state) :
    Meets good' (do return f (← out)) result := by
  cases h with
  | ok h => exact .ok (himp _ _ h)
  | error => exact .error

/-- **Two steps** meet two expectations, the second one from where the first one leads. -/
theorem Meets.bind {good : α → BuildState → Prop} {good' : β → BuildState → Prop}
    {out : Except RenderError α} {out' : α → Except RenderError β} {first second : Build Unit}
    {state : BuildState} (h : Meets good out (first state))
    (h' : ∀ a state', out = .ok a → good a state' → Meets good' (out' a) (second state')) :
    Meets good' (out >>= out') ((first >>= fun _ => second) state) := by
  rw [stateBind_apply]
  cases hrun : first state with
  | ok _ state' =>
    rw [hrun] at h
    cases h with
    | ok h => exact h' _ _ rfl h
  | error cause state' =>
    rw [hrun] at h
    cases h with
    | error => exact .error

/-! ## Pieces -/

/-- **A step that adds pieces** to the text and does nothing else, or fails. -/
def Prints (act : Build Unit) (out : Except RenderError (List Fragment)) : Prop :=
  ∀ state : BuildState,
    Meets (fun pieces state' => state' = { state with text := state.text.push pieces }) out
      (act state)

/-- Pushing pieces prints them. -/
theorem prints_push (pieces : List Fragment) : Prints (push pieces) (.ok pieces) :=
  fun _ => .ok rfl

/-- Doing nothing prints nothing. -/
theorem prints_pure : Prints (pure ()) (.ok []) :=
  fun _ => .ok (by simp)

/-- Pieces after pieces. -/
theorem Prints.bind {first second : Build Unit} {out out' : Except RenderError (List Fragment)}
    (h : Prints first out) (h' : Prints second out') :
    Prints (first >>= fun _ => second) (do
      let pieces ← out
      let others ← out'
      return pieces ++ others) := by
  intro state
  refine (h state).bind fun pieces state' _ hstate => (h' state').map fun others state'' hstate' => ?_
  rw [hstate', hstate, ← IndentedText.push_push]

/-- Only the outcome matters. -/
theorem Prints.congr {act : Build Unit} {out out' : Except RenderError (List Fragment)}
    (h : Prints act out) (heq : out = out') : Prints act out' :=
  heq ▸ h

/-- Given pieces in front of others. -/
theorem Prints.after_push {act : Build Unit} {out : Except RenderError (List Fragment)}
    (h : Prints act out) (pieces : List Fragment) :
    Prints (push pieces >>= fun _ => act) (do return pieces ++ (← out)) :=
  (prints_push pieces).bind h

/-- Pieces that need a result. -/
theorem prints_ofExcept_bind (result : Except RenderError α) {act : α → Build Unit}
    {out : α → Except RenderError (List Fragment)} (h : ∀ a, Prints (act a) (out a)) :
    Prints (ofExcept result >>= act) (result >>= out) := by
  intro state
  cases result with
  | error cause => exact .error
  | ok a => exact h a state

end Build

/-! ## Lines and marks -/

/-- The handles with one more, unless it is there. -/
def markIn (visited : List Handle) (h : Handle) : List Handle :=
  if h ∈ visited then visited else visited ++ [h]

namespace Graph

/-- The elements that are marked when a declaration opens: itself, and in TypeScript the values of
an enum. -/
def markedBy (graph : Graph) (dialect : Dialect) (h : Handle) : List Handle :=
  h :: (if dialect = .typescript ∧ (graph.element h).kind = .enumeration
    then (graph.enumValues (graph.element h).memberItems).map (·.2) else [])

/-- **The declared elements** among the marked ones: all but the enum values. -/
def declared (graph : Graph) (visited : List Handle) : List Handle :=
  visited.filter fun h => !graph.isEnumValue h

/-- Where nothing is marked nothing is declared: `graph.declared [] = []`. -/
@[simp] theorem declared_nil (graph : Graph) : graph.declared [] = [] := rfl

/-- What is declared of two lists of marks is declared of each, in order. -/
@[simp] theorem declared_append (graph : Graph) (visited others : List Handle) :
    graph.declared (visited ++ others) = graph.declared visited ++ graph.declared others :=
  List.filter_append ..

/-- Marking enum values declares nothing: `graph.declared visited = []`. -/
theorem declared_eq_nil {graph : Graph} {visited : List Handle}
    (h : ∀ a ∈ visited, graph.isEnumValue a = true) : graph.declared visited = [] :=
  List.filter_eq_nil_iff.mpr fun a ha => by simp [h a ha]

/-- **What a step leaves** that adds lines to the text and marks elements, of which those that are
no enum values were not marked before. -/
structure Wrote (graph : Graph) (marked : List Handle) (before : BuildState) (lines : List Line)
    (after : BuildState) : Prop where
  text : after.text = before.text.push (fragmentsOf lines)
  declared : graph.declared after.visited = graph.declared before.visited ++ graph.declared marked
  visited : after.visited = marked.foldl markIn before.visited

/-- **A step that writes lines** from a state in which some elements are declared: it adds the lines
of the present level to the text and marks more elements, or fails. -/
def Writes (graph : Graph) (found marked : List Handle)
    (out : Nat → Except RenderError (List Line)) (act : Build Unit) : Prop :=
  ∀ (level : Nat) (state : BuildState), state.text.depth = level →
    state.text.indentUnit = "  " → graph.declared state.visited = found →
    Build.Meets (graph.Wrote marked state) (out level) (act state)

namespace Writes

variable {graph : Graph} {found marked marked' : List Handle}
  {out out' : Nat → Except RenderError (List Line)} {first second : Build Unit}

/-- Only the outcomes at the levels matter. -/
theorem congr (h : Writes graph found marked out first)
    (heq : ∀ level, out level = out' level) : Writes graph found marked out' first := by
  obtain rfl : out = out' := funext heq
  exact h

/-- Nothing is written by doing nothing. -/
theorem pure : Writes graph found [] (fun _ => .ok []) (Pure.pure ()) :=
  fun _ _ _ _ _ => .ok ⟨by simp, by simp, rfl⟩

/-- A step that fails writes nothing. -/
theorem throw (cause : RenderError) :
    Writes graph found marked (fun _ => .error cause) (MonadExcept.throw cause) :=
  fun _ _ _ _ _ => .error

/-- **Lines after lines**: the elements of the second step are new with respect to
`found ++ graph.declared marked`. It only counts where the first one does not fail. -/
theorem bind (h : Writes graph found marked out first)
    (h' : (∃ level lines, out level = .ok lines) →
      Writes graph (found ++ graph.declared marked) marked' out' second) :
    Writes graph found (marked ++ marked') (fun level => do
      let lines ← out level
      let others ← out' level
      return lines ++ others) (first >>= fun _ => second) := by
  intro level state hdepth hunit hfound
  refine (h level state hdepth hunit hfound).bind fun lines state₁ hout wrote => ?_
  have hdepth₁ : state₁.text.depth = level := by rw [wrote.text]; exact hdepth
  have hunit₁ : state₁.text.indentUnit = "  " := by rw [wrote.text]; exact hunit
  have hfound₁ : graph.declared state₁.visited = found ++ graph.declared marked := by
    rw [wrote.declared, hfound]
  refine (h' ⟨level, lines, hout⟩ level state₁ hdepth₁ hunit₁ hfound₁).map
    fun others state₂ wrote' => ⟨?_, ?_, ?_⟩
  · rw [wrote'.text, wrote.text, IndentedText.push_push, fragmentsOf_append]
  · rw [wrote'.declared, wrote.declared, declared_append, List.append_assoc]
  · rw [wrote'.visited, wrote.visited, List.foldl_append]

/-- Lines after lines that declare nothing. -/
theorem bind_of_declared_nil (hmarked : graph.declared marked = [])
    (h : Writes graph found marked out first) (h' : Writes graph found marked' out' second) :
    Writes graph found (marked ++ marked') (fun level => do
      let lines ← out level
      let others ← out' level
      return lines ++ others) (first >>= fun _ => second) :=
  h.bind fun _ => by rwa [hmarked, List.append_nil]

/-- What is written with a result that may fail. -/
theorem ofExcept_bind {α : Type} (result : Except RenderError α) {act : α → Build Unit}
    {out : α → Nat → Except RenderError (List Line)}
    (h : ∀ a, Writes graph found marked (out a) (act a)) :
    Writes graph found marked (fun level => do out (← result) level)
      (Build.ofExcept result >>= act) := by
  cases result with
  | error cause => exact throw cause
  | ok a => exact h a

/-- **One line**: the indentation and the pieces of the line. -/
theorem ofPieces {act : Build Unit} {pieces : Except RenderError (List Fragment)}
    (h : Build.Prints act pieces) :
    Writes graph found [] (fun level => do return [Line.mk level (← pieces)])
      (Build.indent >>= fun _ => act) := by
  intro level state hdepth hunit _
  refine (h { state with text := state.text.indent }).map fun words state' hstate' => ?_
  subst hstate'
  refine ⟨?_, by simp, rfl⟩
  show state.text.indent.push words = _
  rw [IndentedText.indent_eq_push hdepth hunit, IndentedText.push_push]
  simp [Line.fragments]

/-- A line of the text is a line of the present level. -/
theorem line (pieces : List Fragment) :
    Writes graph found [] (fun level => .ok [⟨level, pieces ++ [some "\n"]⟩])
      (Build.line pieces) := by
  intro level state hdepth hunit _
  have hrun : Build.line pieces state
      = .ok () { state with text := state.text.line pieces } := rfl
  rw [hrun]
  refine .ok ⟨?_, by simp, rfl⟩
  show state.text.line pieces = _
  rw [IndentedText.line_eq_push hdepth hunit]
  simp

/-- **A block**: its header, what is written inside it one level deeper, and the line that closes
it, as `Build.openBlock` and `Build.closeBlock` write them. -/
theorem block (header : List Fragment) (h : Writes graph found marked out first) :
    Writes graph found marked (fun level => do
      let within ← out (level + 1)
      return Line.opener level header :: within ++ [Line.closer.deeper level])
      (do Build.openBlock header; first; Build.closeBlock) := by
  intro level state hdepth hunit hfound
  have hinside := h (level + 1) { state with text := state.text.openBlock header }
    (by simp [hdepth]) (by simpa using hunit) hfound
  -- closing goes back to the depth before the block, where its last line stands
  have hclose : ∀ within state₁,
      graph.Wrote marked { state with text := state.text.openBlock header } within state₁ →
      Build.Meets (graph.Wrote marked state)
        (.ok (Line.opener level header :: within ++ [Line.closer.deeper level]))
        (Build.closeBlock state₁) := by
    intro within state₁ wrote
    have hrun : Build.closeBlock state₁
        = .ok () { state₁ with text := state₁.text.closeBlock (some "") } := rfl
    rw [hrun]
    refine .ok ⟨?_, wrote.declared, wrote.visited⟩
    have hback : ({ state₁.text with depth := state₁.text.depth - 1 } : IndentedText)
        = state.text.push (fragmentsOf (Line.opener level header :: within)) := by
      rw [wrote.text, IndentedText.openBlock, IndentedText.line_eq_push hdepth hunit]
      simp [IndentedText.push, Line.opener]
    show ({ state₁.text with depth := state₁.text.depth - 1 } : IndentedText).line
      [some "\x7d", some ""] = _
    -- the closing line stands at the depth from before the block
    have hline := (state.text.push (fragmentsOf (Line.opener level header :: within))).line_eq_push
      (by simpa using hdepth) (by simpa using hunit) [some "\x7d", some ""]
    rw [hback, hline, IndentedText.push_push]
    simp [Line.closer, Line.deeper, Line.fragments]
  exact hinside.bind fun within state₁ _ wrote => hclose within state₁ wrote

/-- A line for every item, each of which may mark elements. -/
theorem each {α : Type} {step : α → Build Unit} {words : α → Except RenderError (List Fragment)}
    {marks : α → List Handle} (items : List α) (hmarks : ∀ a ∈ items, graph.declared (marks a) = [])
    (h : ∀ a ∈ items, Writes graph found (marks a)
      (fun level => do return [Line.mk level (← words a)]) (step a)) :
    Writes graph found (items.flatMap marks) (fun level => do
      let pieces ← items.mapM words
      return pieces.map (Line.mk level)) (Build.each step items) := by
  induction items with
  | nil => exact pure.congr fun level => by simp [pure_eq_ok]
  | cons a items ih =>
    have hrest := ih (fun b hb => hmarks b (List.mem_cons_of_mem a hb))
      fun b hb => h b (List.mem_cons_of_mem a hb)
    rw [List.flatMap_cons]
    refine (bind_of_declared_nil (hmarks a List.mem_cons_self) (h a List.mem_cons_self)
      hrest).congr fun level => ?_
    cases hwords : words a <;> cases hmore : items.mapM words <;>
      simp [List.mapM_cons, hwords, hmore, pure_eq_ok]

/-- **Marking an element that was not declared** before something is written. -/
theorem mark_fresh {h : Handle} (hkind : graph.isEnumValue h = false) (hnew : h ∉ found)
    (hact : Writes graph (found ++ [h]) marked out first) :
    Writes graph found (h :: marked) out (do if ← Build.mark h then first) := by
  intro level state hdepth hunit hfound
  have hmem : h ∉ state.visited := by
    intro hmem
    refine hnew ?_
    rw [← hfound]
    exact List.mem_filter.mpr ⟨hmem, by simp [hkind]⟩
  have hmark : Build.mark h state = .ok true { state with visited := state.visited ++ [h] } := by
    show (if h ∈ state.visited then _ else _ : Build Bool) state = _
    rw [if_neg hmem]
    rfl
  have hdeclared : graph.declared [h] = [h] := by simp [declared, hkind]
  rw [stateBind_of_ok hmark]
  refine (hact level { state with visited := state.visited ++ [h] } hdepth hunit
    (by rw [declared_append, hfound, hdeclared])).imp fun lines after wrote => ⟨wrote.text, ?_, ?_⟩
  · rw [wrote.declared, declared_append, List.append_assoc, ← declared_append]
    rfl
  · rw [wrote.visited, List.foldl_cons, markIn, if_neg hmem]

/-- **Marking an element that was declared**: nothing is written. -/
theorem mark_again {h : Handle} (hold : h ∈ found) :
    Writes graph found [] (fun _ => .ok []) (do if ← Build.mark h then first) := by
  intro level state hdepth hunit hfound
  have hmem : h ∈ state.visited := List.mem_of_mem_filter (hfound ▸ hold)
  have hmark : Build.mark h state = .ok false state := by
    show (if h ∈ state.visited then _ else _ : Build Bool) state = _
    rw [if_pos hmem]
    rfl
  rw [stateBind_of_ok hmark]
  exact pure level state hdepth hunit hfound

/-- **Marking an enum value** before something is written; it may be marked already. -/
theorem mark_value {h : Handle} (hkind : graph.isEnumValue h = true)
    (hact : Writes graph found marked out first) :
    Writes graph found (h :: marked) out (Build.mark h >>= fun _ => first) := by
  intro level state hdepth hunit hfound
  have hdeclared : graph.declared [h] = [] := by simp [declared, hkind]
  have hmark : ∃ b, Build.mark h state = .ok b { state with visited := markIn state.visited h } := by
    show ∃ b, (if h ∈ state.visited then _ else _ : Build Bool) state = _
    by_cases hmem : h ∈ state.visited
    · exact ⟨false, by simp only [markIn, if_pos hmem]; rfl⟩
    · exact ⟨true, by simp only [markIn, if_neg hmem]; rfl⟩
  obtain ⟨b, hmark⟩ := hmark
  have hkept : graph.declared (markIn state.visited h) = graph.declared state.visited := by
    unfold markIn
    split
    · rfl
    · rw [declared_append, hdeclared, List.append_nil]
  rw [stateBind_of_ok hmark]
  refine (hact level { state with visited := markIn state.visited h } hdepth hunit
    (by rw [hkept, hfound])).imp fun lines after wrote => ⟨wrote.text, ?_, ?_⟩
  · rw [wrote.declared, hkept, ← List.singleton_append, declared_append, hdeclared,
      List.nil_append]
  · rw [wrote.visited, List.foldl_cons]

/-- What is logged is not written. -/
theorem log (entry : LogEntry) :
    Writes graph found [] (fun _ => .ok []) (Build.log entry) :=
  fun _ state _ _ _ => .ok ⟨by simp [fragmentsOf_nil], by simp, rfl⟩

end Writes

end Graph

end ModuleSurface
