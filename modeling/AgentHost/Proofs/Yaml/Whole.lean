import AgentHost.Config.Load
/-!
# A text without a fault has a whole tree

A reader that goes on behind what it built left no gap in it. This is one
induction on the fuel over all the readers together; a gap needs a fault.
-/

namespace AgentHost.Yaml

namespace Node

/-! ## Parts without a gap -/

/-- Where reading goes on, nothing is missing in what was built. -/
structure Built.Whole {α : Type} (whole : α → Bool) (b : Built α) : Prop where
  whole : ∀ s, b.2 = .ok s → whole b.1 = true

/-- Nothing is missing in a key and its value. -/
def pairIsWhole (e : Node × Node) : Bool := e.1.isWhole && e.2.isWhole

namespace Built

variable {α : Type} {whole : α → Bool}

theorem whole_error (a : α) (fault : Fault) : Built.Whole whole (a, .error fault) where
  whole := by
    intro s h
    cases h

theorem whole_ok {a : α} (s : Source) (h : whole a = true) : Built.Whole whole (a, .ok s) where
  whole := fun _ _ => h

theorem whole_cons {each : α → Bool} {all : List α → Bool}
    (hcons : ∀ a as, all (a :: as) = (each a && all as)) {first : Built α} {more : Source → Built (List α)}
    (hfirst : first.Whole each) (hmore : ∀ s, (more s).Whole all) : (first.cons more).Whole all := by
  obtain ⟨a, outcome⟩ := first
  cases outcome with
  | error fault => exact whole_error _ fault
  | ok s =>
    refine ⟨fun s' h => ?_⟩
    show all (a :: (more s).1) = true
    rw [hcons, hfirst.whole s rfl, (hmore s).whole s' h]
    rfl

theorem whole_withValue {key : Built Node} {value : Source → Built Node} (hkey : key.Whole isWhole)
    (hvalue : ∀ s, (value s).Whole isWhole) : (key.withValue value).Whole pairIsWhole := by
  obtain ⟨k, outcome⟩ := key
  cases outcome with
  | error fault => exact whole_error _ fault
  | ok s =>
    refine ⟨fun s' h => ?_⟩
    show (k.isWhole && (value s).1.isWhole) = true
    rw [show k.isWhole = true from hkey.whole s rfl, (hvalue s).whole s' h]
    rfl

end Built

theorem whole_cutOff (fault : Fault) : (cutOff fault).Whole isWhole := Built.whole_error _ fault

theorem isWhole_empty (mark : Mark) : (empty mark).isWhole = true := rfl

theorem whole_items {first : Built Node} {more : Source → Built (List Node)} (hfirst : first.Whole isWhole)
    (hmore : ∀ s, (more s).Whole areWhole) : (first.cons more).Whole areWhole :=
  Built.whole_cons (fun _ _ => rfl) hfirst hmore

theorem whole_entries {first : Built (Node × Node)} {more : Source → Built (List (Node × Node))}
    (hfirst : first.Whole pairIsWhole) (hmore : ∀ s, (more s).Whole entriesAreWhole) :
    (first.cons more).Whole entriesAreWhole :=
  Built.whole_cons (fun _ _ => rfl) hfirst hmore

theorem whole_sequence {b : Built (List Node)} (h : b.Whole areWhole) (mark : Mark) (slot : Option Nat)
    (tag : Option (List Char)) : Built.Whole isWhole (.sequence mark slot tag b.1, b.2) where
  whole := h.whole

theorem whole_mapping {b : Built (List (Node × Node))} (h : b.Whole entriesAreWhole) (mark : Mark)
    (slot : Option Nat) (tag : Option (List Char)) : Built.Whole isWhole (.mapping mark slot tag b.1, b.2) where
  whole := h.whole

/-! ## The readers -/

/-- No reader leaves a gap with that fuel. -/
structure WholeAt (fuel : Nat) : Prop where
  node : ∀ block indentless s, (node block indentless fuel s).Whole isWhole
  content : ∀ block indentless p s, (content block indentless p fuel s).Whole isWhole
  blockItems : ∀ began s, (blockItems began fuel s).Whole areWhole
  indentlessItems : ∀ s, (indentlessItems fuel s).Whole areWhole
  blockItem : ∀ ends stop s, (blockItem ends stop fuel s).Whole isWhole
  blockEntries : ∀ began s, (blockEntries began fuel s).Whole entriesAreWhole
  blockPart : ∀ stop s, (blockPart stop fuel s).Whole isWhole
  blockValue : ∀ s, (blockValue fuel s).Whole isWhole
  flowItems : ∀ first began s, (flowItems first began fuel s).Whole areWhole
  flowItem : ∀ s, (flowItem fuel s).Whole isWhole
  pairKey : ∀ s, (pairKey fuel s).Whole isWhole
  flowValue : ∀ close s, (flowValue close fuel s).Whole isWhole
  flowEntries : ∀ first began s, (flowEntries first began fuel s).Whole entriesAreWhole
  flowEntry : ∀ s, (flowEntry fuel s).Whole pairIsWhole
  flowKey : ∀ s, (flowKey fuel s).Whole isWhole

theorem whole_pairEnd (s : Source) : (pairEnd s).Whole entriesAreWhole := by
  unfold pairEnd
  split
  · exact Built.whole_error _ _
  · exact Built.whole_ok s rfl

theorem whole_noValue (s : Source) : (noValue s).Whole isWhole := by
  unfold noValue
  split
  · exact whole_cutOff _
  · exact Built.whole_ok s (isWhole_empty _)

variable {fuel : Nat}

theorem whole_node (ih : WholeAt fuel) (block indentless : Bool) (s : Source) :
    (node block indentless (fuel + 1) s).Whole isWhole := by
  unfold node
  split
  · exact whole_cutOff _
  · split
    · split
      · exact Built.whole_ok _ rfl
      · exact whole_cutOff _
    · split
      · exact whole_cutOff _
      · exact ih.content ..

theorem whole_content (ih : WholeAt fuel) (block indentless : Bool) (p : Properties) (s : Source) :
    (content block indentless p (fuel + 1) s).Whole isWhole := by
  have hother : ∀ (fault : Fault) (slot : Option Nat) (s : Source),
      Built.Whole isWhole (if p.anchor.isSome || p.tag.isSome then
        ((.scalar p.start slot p.tag [] .plain, .ok s) : Built Node) else cutOff fault) := by
    intro fault slot s
    split
    · exact Built.whole_ok s rfl
    · exact whole_cutOff fault
  unfold content
  split
  · exact whole_cutOff _
  case h_2 t _ =>
    obtain ⟨slot, s'⟩ := s.bindAnchor p.anchor
    simp only
    split
    · exact Built.whole_ok _ rfl
    · exact whole_sequence (ih.flowItems ..) ..
    · exact whole_mapping (ih.flowEntries ..) ..
    · split
      · exact whole_sequence (ih.indentlessItems ..) ..
      · exact hother _ slot s'
    · split
      · exact whole_sequence (ih.blockItems ..) ..
      · exact hother _ slot s'
    · split
      · exact whole_mapping (ih.blockEntries ..) ..
      · exact hother _ slot s'
    · exact hother _ slot s'

theorem whole_blockItems (ih : WholeAt fuel) (began : Mark) (s : Source) :
    (blockItems began (fuel + 1) s).Whole areWhole := by
  unfold blockItems
  split
  · exact Built.whole_error _ _
  · split
    · exact whole_items (ih.blockItem ..) (ih.blockItems began)
    · exact Built.whole_ok _ rfl
    · exact Built.whole_error _ _

theorem whole_indentlessItems (ih : WholeAt fuel) (s : Source) :
    (indentlessItems (fuel + 1) s).Whole areWhole := by
  unfold indentlessItems
  split
  · exact Built.whole_error _ _
  · split
    · exact whole_items (ih.blockItem ..) ih.indentlessItems
    · exact Built.whole_ok s rfl

theorem whole_blockItem (ih : WholeAt fuel) (ends : Token.Kind → Bool) (stop : Mark) (s : Source) :
    (blockItem ends stop (fuel + 1) s).Whole isWhole := by
  unfold blockItem
  split
  · exact whole_cutOff _
  · split
    · exact Built.whole_ok s (isWhole_empty stop)
    · exact ih.node ..

theorem whole_blockEntries (ih : WholeAt fuel) (began : Mark) (s : Source) :
    (blockEntries began (fuel + 1) s).Whole entriesAreWhole := by
  unfold blockEntries
  split
  · exact Built.whole_error _ _
  · split
    · exact whole_entries (Built.whole_withValue (ih.blockPart ..) ih.blockValue) (ih.blockEntries began)
    · exact Built.whole_ok _ rfl
    · exact Built.whole_error _ _

theorem whole_blockPart (ih : WholeAt fuel) (stop : Mark) (s : Source) :
    (blockPart stop (fuel + 1) s).Whole isWhole := by
  unfold blockPart
  split
  · exact whole_cutOff _
  · split
    · exact Built.whole_ok s (isWhole_empty stop)
    · exact ih.node ..

theorem whole_blockValue (ih : WholeAt fuel) (s : Source) : (blockValue (fuel + 1) s).Whole isWhole := by
  unfold blockValue
  split
  · exact whole_cutOff _
  · split
    · exact ih.blockPart ..
    · exact Built.whole_ok s (isWhole_empty _)

theorem whole_flowItems (ih : WholeAt fuel) (first : Bool) (began : Mark) (s : Source) :
    (flowItems first began (fuel + 1) s).Whole areWhole := by
  have hitems : ∀ s, ((flowItem fuel s).cons (flowItems false began fuel)).Whole areWhole :=
    fun s => whole_items (ih.flowItem s) (ih.flowItems false began)
  unfold flowItems
  split
  · exact Built.whole_error _ _
  · split
    · exact Built.whole_ok _ rfl
    · split
      · exact hitems s
      · split
        · split
          · exact Built.whole_error _ _
          · split
            · exact Built.whole_ok _ rfl
            · exact hitems s.skip
        · exact Built.whole_error _ _

theorem whole_flowItem (ih : WholeAt fuel) (s : Source) : (flowItem (fuel + 1) s).Whole isWhole := by
  unfold flowItem
  split
  · exact whole_cutOff _
  · split
    · exact whole_mapping (whole_entries (Built.whole_withValue (ih.pairKey _) (ih.flowValue _)) whole_pairEnd) ..
    · exact ih.node ..

theorem whole_pairKey (ih : WholeAt fuel) (s : Source) : (pairKey (fuel + 1) s).Whole isWhole := by
  unfold pairKey
  split
  · exact whole_cutOff _
  · split
    · exact Built.whole_ok _ (isWhole_empty _)
    · exact ih.node ..

theorem whole_flowValue (ih : WholeAt fuel) (close : Token.Kind) (s : Source) :
    (flowValue close (fuel + 1) s).Whole isWhole := by
  unfold flowValue
  split
  · exact whole_cutOff _
  · split
    · split
      · exact whole_cutOff _
      · split
        · exact Built.whole_ok _ (isWhole_empty _)
        · exact ih.node ..
    · exact Built.whole_ok s (isWhole_empty _)

theorem whole_flowEntries (ih : WholeAt fuel) (first : Bool) (began : Mark) (s : Source) :
    (flowEntries first began (fuel + 1) s).Whole entriesAreWhole := by
  have hentries : ∀ s, ((flowEntry fuel s).cons (flowEntries false began fuel)).Whole entriesAreWhole :=
    fun s => whole_entries (ih.flowEntry s) (ih.flowEntries false began)
  unfold flowEntries
  split
  · exact Built.whole_error _ _
  · split
    · exact Built.whole_ok _ rfl
    · split
      · exact hentries s
      · split
        · split
          · exact Built.whole_error _ _
          · split
            · exact Built.whole_ok _ rfl
            · exact hentries s.skip
        · exact Built.whole_error _ _

theorem whole_flowEntry (ih : WholeAt fuel) (s : Source) : (flowEntry (fuel + 1) s).Whole pairIsWhole := by
  unfold flowEntry
  split
  · exact Built.whole_error _ _
  · split
    · exact Built.whole_withValue (ih.flowKey _) (ih.flowValue _)
    · exact Built.whole_withValue (ih.node ..) whole_noValue

theorem whole_flowKey (ih : WholeAt fuel) (s : Source) : (flowKey (fuel + 1) s).Whole isWhole := by
  unfold flowKey
  split
  · exact whole_cutOff _
  · split
    · exact Built.whole_ok s (isWhole_empty _)
    · exact ih.node ..

/-- Without fuel every reader stops with a fault; with more of it none leaves a gap. -/
theorem wholeAt (fuel : Nat) : WholeAt fuel := by
  induction fuel with
  | zero => constructor <;> intros <;> exact Built.whole_error _ _
  | succ fuel ih =>
    exact {
      node := whole_node ih
      content := whole_content ih
      blockItems := whole_blockItems ih
      indentlessItems := whole_indentlessItems ih
      blockItem := whole_blockItem ih
      blockEntries := whole_blockEntries ih
      blockPart := whole_blockPart ih
      blockValue := whole_blockValue ih
      flowItems := whole_flowItems ih
      flowItem := whole_flowItem ih
      pairKey := whole_pairKey ih
      flowValue := whole_flowValue ih
      flowEntries := whole_flowEntries ih
      flowEntry := whole_flowEntry ih
      flowKey := whole_flowKey ih }

end Node

/-! ## Documents -/

namespace Document

theorem whole_markedRoot (fuel : Nat) (s : Node.Source) : (markedRoot fuel s).Whole Node.isWhole := by
  unfold markedRoot
  split
  · exact Node.whole_cutOff _
  · split
    · exact Node.whole_cutOff _
    · split
      · dsimp only
        split
        · exact Node.whole_cutOff _
        · split
          all_goals first
            | exact Node.Built.whole_ok _ (Node.isWhole_empty _)
            | exact (Node.wholeAt fuel).node ..
      · exact Node.whole_cutOff _

/-- Without a fault nothing is missing in the tree. -/
structure Whole (d : Document) : Prop where
  whole : d.fault = none → d.root.isWhole = true

theorem whole_finish {b : Node.Built Node} (h : b.Whole Node.isWhole) : (finish b).Whole := by
  obtain ⟨root, outcome⟩ := b
  cases outcome with
  | error fault => exact ⟨fun hfault => nomatch hfault⟩
  | ok s =>
    simp only [finish]
    split
    · exact ⟨fun hfault => nomatch hfault⟩
    · exact ⟨fun _ => h.whole s rfl⟩

theorem whole_ofTokens (tokens : List Token) (cut : Option Fault) : (ofTokens tokens cut).Whole := by
  simp only [ofTokens]
  split
  · exact ⟨fun hfault => nomatch hfault⟩
  · split
    · exact ⟨fun _ => Node.isWhole_empty _⟩
    all_goals first
      | exact whole_finish (whole_markedRoot ..)
      | exact whole_finish ((Node.wholeAt _).node ..)

/-- A text without a fault has a whole tree. -/
theorem whole_ofText (text : List Char) : (ofText text).Whole := whole_ofTokens ..

end Document

end AgentHost.Yaml
