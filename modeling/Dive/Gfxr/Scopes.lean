import Dive.Gfxr.Growth
import Mathlib.Data.List.Count

/-!
# The scopes of a command buffer

* `ScopeKind`, `scopeEvent`: labels, render passes and dynamic rendering, and the commands that open
  and close them.
* `Progress`: the creator after some commands, with the scopes that are open by their kinds.
* `ScopesNest`: each command is below the innermost open scope, and the stack of the creator holds
  the open scopes.
* `WellNested`: no dynamic rendering, and each end finds a scope of its kind innermost.
* `Tracks`: the stack follows the open scopes; `Tracks.next`, `Tracks.next_ne`.
* **`scopesNest_iff`**: the exact condition; `crossedScopes_not_nest` does not meet it.
-/

namespace Dive.GfxrVulkanCommandHierarchyCreator

open DiveAnnotationProcessor State

/-! ## Scopes -/

/-- What opens a scope. -/
inductive ScopeKind
  | debugUtilsLabel
  | renderPass
  | dynamicRendering
  deriving DecidableEq

inductive ScopeEvent
  | opens (kind : ScopeKind)
  | closes (kind : ScopeKind)

/-- What a command does to the scopes. -/
def scopeEvent (v : VulkanCommandInfo) : Option ScopeEvent :=
  match commandKind v.name.text with
  | .beginDebugUtilsLabel => some (.opens .debugUtilsLabel)
  | .endDebugUtilsLabel => some (.closes .debugUtilsLabel)
  | .beginRenderPass => some (.opens .renderPass)
  | .endRenderPass => some (.closes .renderPass)
  | .other =>
    if find v.name.text "vkCmdBeginRendering" then some (.opens .dynamicRendering)
    else if find v.name.text "vkCmdEndRendering" then some (.closes .dynamicRendering)
    else none
  | _ => none

/-- An open scope, and the node of the command that began it. -/
structure Scope where
  kind : ScopeKind
  node : ℕ

/-- The open scopes, innermost first. An end closes the innermost one of its kind. -/
def updateScopes (nodeIndex : ℕ) : Option ScopeEvent → List Scope → List Scope
  | none, scopes => scopes
  | some (.opens kind), scopes => ⟨kind, nodeIndex⟩ :: scopes
  | some (.closes kind), scopes => scopes.eraseP (·.kind = kind)

/-- The creator in the middle of a command buffer. -/
structure Progress where
  state : State
  counts : List ℕ
  scopes : List Scope

namespace Progress

/-- One more command. -/
def next (n : ℕ) (x : Progress) (v : VulkanCommandInfo) : Progress :=
  let r := x.state.onCommand v n x.counts
  ⟨r.1, r.2, updateScopes x.state.nodes.length (scopeEvent v) x.scopes⟩

/-- The node of the innermost open scope, or of the command buffer. -/
def innermost (x : Progress) : ℕ :=
  (x.scopes.map Scope.node).headD x.state.curCommandBufferNodeIndex

def kinds (x : Progress) : List ScopeKind := x.scopes.map Scope.kind

/-- The stack of the creator holds the open scopes. -/
def Agrees (x : Progress) : Prop := x.state.curParentNodeIndexStack = x.scopes.map Scope.node

theorem onCommands_eq (n : ℕ) (vkCmds : List VulkanCommandInfo) (x : Progress) :
    onCommands n x.state vkCmds x.counts = (vkCmds.foldl (next n) x).state := by
  induction vkCmds generalizing x with
  | nil => rfl
  | cons v vkCmds ih => exact ih (x.next n v)

theorem extends_foldl (n : ℕ) (vkCmds : List VulkanCommandInfo) (x : Progress) :
    Extends x.state (vkCmds.foldl (next n) x).state := by
  rw [← onCommands_eq]
  exact extends_onCommands n x.state vkCmds x.counts

end Progress

/-- A command buffer: its begin, commands, and its end. -/
def IsRecording (vkCmds : List VulkanCommandInfo) : Prop :=
  ∃ b mid e, vkCmds = b :: (mid ++ [e]) ∧ commandKind b.name.text = .beginCommandBuffer ∧
    commandKind e.name.text = .endCommandBuffer ∧ ∀ v ∈ mid,
      commandKind v.name.text ≠ .beginCommandBuffer ∧ commandKind v.name.text ≠ .endCommandBuffer

/-- The number of open scopes of one kind; `none` where an end comes without a begin. -/
def depth (kind : ScopeKind) (d : ℕ) : Option ScopeEvent → Option ℕ
  | none => some d
  | some (.opens kind') => some (if kind' = kind then d + 1 else d)
  | some (.closes kind') => if kind' = kind then (if d = 0 then none else some (d - 1)) else some d

/-- The begins and ends of one kind match. -/
def Balanced (kind : ScopeKind) (vkCmds : List VulkanCommandInfo) : Prop :=
  Monitor.run (depth kind) 0 (vkCmds.map scopeEvent) = some 0

/-- **The commands of a command buffer nest in its scopes**: after each command, the stack holds the
scopes that are open, each command is a child of the scope that is innermost when it comes, and at
the end no scope is left. -/
structure ScopesNest (s : State) (n : ℕ) (counts : List ℕ) (vkCmds : List VulkanCommandInfo) :
    Prop where
  agrees : ∀ u, u <+: vkCmds → (u.foldl (Progress.next n) ⟨s, counts, []⟩).Agrees
  child : ∀ u v, u ≠ [] → u ++ [v] <+: vkCmds → commandKind v.name.text ≠ .endDebugUtilsLabel →
    (u.foldl (Progress.next n) ⟨s, counts, []⟩).state.nodes.length ∈
      (s.processVkCmds vkCmds n counts).childrenAt
        (u.foldl (Progress.next n) ⟨s, counts, []⟩).innermost
  closed : (vkCmds.foldl (Progress.next n) ⟨s, counts, []⟩).state.curParentNodeIndexStack = []

/-- The kinds of the open scopes; `none` where dynamic rendering begins, or a scope ends that is not
innermost. -/
def nest : List ScopeKind → Option ScopeEvent → Option (List ScopeKind)
  | kinds, none => some kinds
  | _, some (.opens .dynamicRendering) => none
  | kinds, some (.opens kind) => some (kind :: kinds)
  | [], some (.closes _) => none
  | kind' :: kinds, some (.closes kind) => if kind' = kind then some kinds else none

/-- No dynamic rendering begins, and each scope that ends is the innermost one. -/
def WellNested (vkCmds : List VulkanCommandInfo) : Prop :=
  (Monitor.run nest [] (vkCmds.map scopeEvent)).isSome

/-! ## The depth of each kind -/

section Depth

variable {kinds kinds' : List ScopeKind} {event : Option ScopeEvent} {kind : ScopeKind}

theorem depth_of_nest (h : nest kinds event = some kinds') (kind : ScopeKind) :
    depth kind (kinds.count kind) event = some (kinds'.count kind) := by
  rcases event with - | ⟨k⟩ | ⟨k⟩
  · cases h
    rfl
  · cases k
    · cases h
      simp [depth, List.count_cons]
      split_ifs <;> rfl
    · cases h
      simp [depth, List.count_cons]
      split_ifs <;> rfl
    · cases h
  · rcases kinds with - | ⟨k', rest⟩
    · cases h
    · rw [nest] at h
      split_ifs at h with hk
      cases h
      subst hk
      by_cases hkind : k' = kind <;> simp [depth, hkind]

theorem run_depth_of_nest : ∀ {events : List (Option ScopeEvent)} {kinds : List ScopeKind},
    Monitor.run nest kinds events = some kinds' → ∀ kind,
      Monitor.run (depth kind) (kinds.count kind) events = some (kinds'.count kind)
  | [], kinds, h, kind => by
    cases h
    rfl
  | event :: events, kinds, h, kind => by
    obtain ⟨kinds₁, hone, hrest⟩ := Option.bind_eq_some_iff.mp h
    rw [Monitor.run_cons_of (depth_of_nest hone kind)]
    exact run_depth_of_nest hrest kind

theorem mem_of_depth {d : ℕ} (h : depth kind (kinds.count kind) (some (.closes kind)) = some d) :
    kind ∈ kinds := by
  by_contra hnot
  simp [depth, List.count_eq_zero_of_not_mem hnot] at h

end Depth

/-! ## The stack follows the scopes -/

/-- The stack holds the open scopes, the labels among them have label nodes, and the nodes of the
inner scopes come later. -/
structure Tracks (base : ℕ) (s : State) (scopes : List Scope) : Prop where
  filled : Filled base s
  stack : s.curParentNodeIndexStack = scopes.map Scope.node
  commandBuffer : base ≤ s.curCommandBufferNodeIndex ∧ s.curCommandBufferNodeIndex < s.nodes.length
  bounds : ∀ σ ∈ scopes, base ≤ σ.node ∧ σ.node < s.nodes.length
  label : ∀ σ ∈ scopes, s.getNodeType σ.node = some .kGfxrBeginDebugUtilsLabelCommandNode ↔
    σ.kind = .debugUtilsLabel
  static : ∀ σ ∈ scopes, σ.kind ≠ .dynamicRendering
  sorted : scopes.Pairwise fun σ τ => τ.node < σ.node

namespace Tracks

variable {base n : ℕ} {s t : State} {scopes : List Scope} {σ : Scope} {x : Progress}
  {v : VulkanCommandInfo}

theorem openParent (h : Tracks base s scopes) : base ≤ s.openParent ∧
    s.openParent < s.nodes.length ∧
    s.openParent = (scopes.map Scope.node).headD s.curCommandBufferNodeIndex := by
  unfold State.openParent
  rw [h.stack]
  cases scopes with
  | nil => exact ⟨h.commandBuffer.1, h.commandBuffer.2, rfl⟩
  | cons σ rest =>
    have hσ := h.bounds σ List.mem_cons_self
    exact ⟨hσ.1, hσ.2, rfl⟩

theorem mono (h : Tracks base s scopes) (hext : Extends s t) (hcursors : SameCursors s t) :
    Tracks base t scopes where
  filled := hext.filled base h.filled
  stack := hcursors.stack.trans h.stack
  commandBuffer := by
    rw [hcursors.commandBuffer]
    exact ⟨h.commandBuffer.1, h.commandBuffer.2.trans_le hext.length_le⟩
  bounds := fun σ hσ => ⟨(h.bounds σ hσ).1, (h.bounds σ hσ).2.trans_le hext.length_le⟩
  label := by
    intro σ hσ
    rw [hext.getNodeType (h.bounds σ hσ).2]
    exact h.label σ hσ
  static := h.static
  sorted := h.sorted

theorem push (h : Tracks base t scopes) (hbase : base ≤ σ.node) (hlt : σ.node < t.nodes.length)
    (hlater : ∀ τ ∈ scopes, τ.node < σ.node) (hstatic : σ.kind ≠ .dynamicRendering)
    (hlabel : t.getNodeType σ.node = some .kGfxrBeginDebugUtilsLabelCommandNode ↔
      σ.kind = .debugUtilsLabel) : Tracks base (t.push σ.node) (σ :: scopes) where
  filled := ⟨h.filled.1, h.filled.2, h.filled.3, h.filled.4⟩
  stack := congrArg (σ.node :: ·) h.stack
  commandBuffer := h.commandBuffer
  bounds := by
    intro τ hτ
    rcases List.mem_cons.mp hτ with rfl | hτ
    · exact ⟨hbase, hlt⟩
    · exact h.bounds τ hτ
  label := by
    intro τ hτ
    rcases List.mem_cons.mp hτ with rfl | hτ
    · exact hlabel
    · exact h.label τ hτ
  static := by
    intro τ hτ
    rcases List.mem_cons.mp hτ with rfl | hτ
    · exact hstatic
    · exact h.static τ hτ
  sorted := List.pairwise_cons.mpr ⟨hlater, h.sorted⟩

theorem pop (h : Tracks base t (σ :: scopes)) : Tracks base t.pop scopes where
  filled := ⟨h.filled.1, h.filled.2, h.filled.3, h.filled.4⟩
  stack := by
    rw [State.pop, h.stack]
    rfl
  commandBuffer := h.commandBuffer
  bounds := fun τ hτ => h.bounds τ (List.mem_cons_of_mem σ hτ)
  label := fun τ hτ => h.label τ (List.mem_cons_of_mem σ hτ)
  static := fun τ hτ => h.static τ (List.mem_cons_of_mem σ hτ)
  sorted := (List.pairwise_cons.mp h.sorted).2

theorem place (h : Tracks base s scopes) (parent : ℕ) (type : NodeType) (desc : NodeDesc)
    (args : Json) : Tracks base (s.place parent type desc args) scopes :=
  h.mono (extends_place s parent type desc args).1 (extends_place s parent type desc args).2

theorem push_place (h : Tracks base s scopes) (parent : ℕ) (type : NodeType) (desc : NodeDesc)
    (args : Json) {kind : ScopeKind} (hstatic : kind ≠ .dynamicRendering)
    (hlabel : type = .kGfxrBeginDebugUtilsLabelCommandNode ↔ kind = .debugUtilsLabel) :
    Tracks base ((s.place parent type desc args).push s.nodes.length)
      (⟨kind, s.nodes.length⟩ :: scopes) := by
  have hlength := h.filled.length_nodes
  refine @push base _ scopes ⟨kind, s.nodes.length⟩ (h.place parent type desc args) ?_
    (place_length parent args) (fun τ hτ => (h.bounds τ hτ).2) hstatic ?_
  · change base ≤ s.nodes.length
    omega
  · rw [place_type]
    simpa using hlabel

theorem next_state (n : ℕ) (x : Progress) (v : VulkanCommandInfo) : (x.next n v).state =
    x.state.perform (commandKind v.name.text) v.args (commandNode v n x.counts) := by
  rw [Progress.next, onCommand_eq]

theorem next_scopes (n : ℕ) (x : Progress) (v : VulkanCommandInfo) : (x.next n v).scopes =
    updateScopes x.state.nodes.length (scopeEvent v) x.scopes := rfl

theorem kinds_cons {x : Progress} {kind : ScopeKind} {kinds : List ScopeKind}
    (h : x.kinds = kind :: kinds) :
    ∃ node rest, x.scopes = ⟨kind, node⟩ :: rest ∧ rest.map Scope.kind = kinds := by
  obtain ⟨⟨kind', node⟩, rest, hscopes, rfl, hrest⟩ := List.map_eq_cons_iff.mp h
  exact ⟨node, rest, hscopes, hrest⟩

/-- **One command of a well-nested command buffer.** -/
theorem next (h : Tracks base x.state x.scopes)
    (hmid : commandKind v.name.text ≠ .beginCommandBuffer ∧
      commandKind v.name.text ≠ .endCommandBuffer) {kinds : List ScopeKind}
    (hnest : nest x.kinds (scopeEvent v) = some kinds) (n : ℕ) :
    Tracks base (x.next n v).state (x.next n v).scopes ∧ (x.next n v).kinds = kinds := by
  rw [Progress.kinds, next_state, next_scopes]
  cases hkind : commandKind v.name.text with
  | beginCommandBuffer => exact absurd hkind hmid.1
  | endCommandBuffer => exact absurd hkind hmid.2
  | beginDebugUtilsLabel =>
    simp only [scopeEvent, hkind, nest, Option.some.injEq] at hnest
    simp only [scopeEvent, hkind, commandNode, updateScopes]
    exact ⟨h.push_place _ _ _ _ (by decide) (by simp), hnest⟩
  | beginRenderPass =>
    simp only [scopeEvent, hkind, nest, Option.some.injEq] at hnest
    simp only [scopeEvent, hkind, commandNode, updateScopes]
    exact ⟨h.push_place _ _ _ _ (by decide) (by simp), hnest⟩
  | draw =>
    simp only [scopeEvent, hkind, nest, Option.some.injEq] at hnest
    simp only [scopeEvent, hkind, commandNode, updateScopes]
    exact ⟨h.place _ _ _ _, hnest⟩
  | other =>
    simp only [scopeEvent, hkind] at hnest
    simp only [scopeEvent, hkind, commandNode]
    split_ifs at hnest ⊢
    · cases hnest
    · -- a dynamic rendering that ends has not begun
      cases hkinds : x.kinds with
      | nil =>
        rw [hkinds] at hnest
        cases hnest
      | cons kind rest =>
        obtain ⟨node, scopes, hscopes, -⟩ := kinds_cons hkinds
        have hstatic := h.static ⟨kind, node⟩ (hscopes ▸ List.mem_cons_self)
        rw [hkinds, nest, if_neg hstatic] at hnest
        cases hnest
    · exact ⟨h.place _ _ _ _, Option.some.inj hnest⟩
  | endDebugUtilsLabel =>
    simp only [scopeEvent, hkind] at hnest
    simp only [scopeEvent, hkind, commandNode, updateScopes]
    cases hkinds : x.kinds with
    | nil =>
      rw [hkinds] at hnest
      cases hnest
    | cons kind rest =>
      rw [hkinds, nest] at hnest
      split_ifs at hnest with hlabel
      obtain rfl := Option.some.inj hnest
      obtain ⟨node, scopes, hscopes, rfl⟩ := kinds_cons hkinds
      subst hlabel
      rw [hscopes] at h ⊢
      have htop := (h.label _ List.mem_cons_self).mpr rfl
      have hclose : x.state.closeLabel = x.state.pop := by
        rw [closeLabel, h.stack]
        exact if_pos htop
      rw [perform, hclose, List.eraseP_cons_of_pos (by simp)]
      exact ⟨h.pop, rfl⟩
  | endRenderPass =>
    simp only [scopeEvent, hkind] at hnest
    simp only [scopeEvent, hkind, commandNode, updateScopes]
    cases hkinds : x.kinds with
    | nil =>
      rw [hkinds] at hnest
      cases hnest
    | cons kind rest =>
      rw [hkinds, nest] at hnest
      split_ifs at hnest with hpass
      obtain rfl := Option.some.inj hnest
      obtain ⟨node, scopes, hscopes, rfl⟩ := kinds_cons hkinds
      subst hpass
      rw [hscopes] at h ⊢
      rw [List.eraseP_cons_of_pos (by simp)]
      exact ⟨(h.place _ _ _ _).pop, rfl⟩

/-- **A dynamic rendering, or an end of a scope that is open but not innermost**: the stack does not
follow. -/
theorem next_ne (h : Tracks base x.state x.scopes)
    (hnest : nest x.kinds (scopeEvent v) = none)
    (hopen : ∀ kind, scopeEvent v = some (.closes kind) → kind ∈ x.kinds) (n : ℕ) :
    ¬ (x.next n v).Agrees := by
  rw [Progress.Agrees, next_state, next_scopes]
  cases hkind : commandKind v.name.text with
  | beginCommandBuffer => simp [scopeEvent, hkind, nest] at hnest
  | endCommandBuffer => simp [scopeEvent, hkind, nest] at hnest
  | beginDebugUtilsLabel => simp [scopeEvent, hkind, nest] at hnest
  | beginRenderPass => simp [scopeEvent, hkind, nest] at hnest
  | draw => simp [scopeEvent, hkind, nest] at hnest
  | other =>
    simp only [scopeEvent, hkind] at hnest hopen
    simp only [scopeEvent, hkind, commandNode]
    split_ifs at hnest hopen ⊢
    · intro hagrees
      have hstack := (h.place x.state.openParent (otherNodeType v.name.text)
        (.command v.name.text v.args none) v.args).stack
      have hlength := congrArg List.length (hstack.symm.trans hagrees)
      simp [updateScopes] at hlength
    · obtain ⟨σ, hσ, hdynamic⟩ := List.mem_map.mp (hopen .dynamicRendering rfl)
      exact absurd hdynamic (h.static σ hσ)
    · cases hnest
  | endDebugUtilsLabel =>
    simp only [scopeEvent, hkind] at hnest hopen
    simp only [scopeEvent, hkind, commandNode, updateScopes]
    obtain ⟨σ, hσ, hlabel⟩ := List.mem_map.mp (hopen .debugUtilsLabel rfl)
    -- the innermost scope is no label, so that nothing is closed
    have hclose : x.state.closeLabel = x.state := by
      unfold closeLabel
      rw [h.stack]
      cases hscopes : x.scopes with
      | nil => rfl
      | cons top rest =>
        have hne : top.kind ≠ .debugUtilsLabel := by
          intro htop
          simp [Progress.kinds, hscopes, nest, htop] at hnest
        exact if_neg fun htype => hne ((h.label top (hscopes ▸ List.mem_cons_self)).mp htype)
    intro hagrees
    rw [perform, hclose] at hagrees
    have hlength := congrArg List.length (h.stack.symm.trans hagrees)
    rw [List.length_map, List.length_map, List.length_eraseP_of_mem hσ (by simp [hlabel])]
      at hlength
    have hpos := List.length_pos_of_mem hσ
    omega
  | endRenderPass =>
    simp only [scopeEvent, hkind] at hnest hopen
    simp only [scopeEvent, hkind, commandNode, updateScopes]
    have hstack := (h.place x.state.openParent .kGfxrVulkanEndRenderPassCommandNode
      (.command v.name.text v.args none) v.args).stack
    intro hagrees
    have htail := (congrArg List.tail hstack).symm.trans hagrees
    have hsorted := h.sorted
    cases hscopes : x.scopes with
    | nil =>
      obtain ⟨σ, hσ, -⟩ := List.mem_map.mp (hopen .renderPass rfl)
      rw [hscopes] at hσ
      cases hσ
    | cons top rest =>
      have hne : top.kind ≠ .renderPass := by
        intro htop
        simp [Progress.kinds, hscopes, nest, htop] at hnest
      rw [hscopes, List.eraseP_cons_of_neg (by simpa using hne)] at htail
      rw [hscopes, List.pairwise_cons] at hsorted
      -- the entry that is left on top would be the one that was popped
      have hmem : top.node ∈ rest.map Scope.node := by
        rw [List.map_cons, List.tail_cons] at htail
        rw [htail]
        exact List.mem_cons_self
      obtain ⟨τ, hτ, hnode⟩ := List.mem_map.mp hmem
      have hlt := hsorted.1 τ hτ
      omega

theorem child_next (h : Tracks base x.state x.scopes)
    (hparent : x.state.parentFor (commandKind v.name.text) = x.innermost)
    (hnode : commandKind v.name.text ≠ .endDebugUtilsLabel) (hbounds : base ≤ x.innermost ∧
      x.innermost < x.state.nodes.length) (n : ℕ) :
    x.state.nodes.length ∈ (x.next n v).state.childrenAt x.innermost := by
  rw [next_state]
  cases hcommand : commandNode v n x.counts with
  | none => exact absurd hcommand (commandNode_ne_none hnode n x.counts)
  | some node =>
    have hchild : x.state.nodes.length ∈
        (x.state.place x.innermost node.1 node.2 v.args).childrenAt x.innermost :=
      h.filled.mem_childrenAt_place hbounds.1 hbounds.2 v.args
    rw [← hparent] at hchild ⊢
    exact (extends_moveCursors _ _ _).children _
      ((hparent ▸ hbounds.2).trans (place_length _ _)) _ hchild

theorem innermost_eq (h : Tracks base x.state x.scopes) : x.innermost = x.state.openParent :=
  h.openParent.2.2.symm

theorem foldl : ∀ {u : List VulkanCommandInfo} {x : Progress},
    Tracks base x.state x.scopes →
    (∀ v ∈ u, commandKind v.name.text ≠ .beginCommandBuffer ∧
      commandKind v.name.text ≠ .endCommandBuffer) →
    ∀ {kinds : List ScopeKind}, Monitor.run nest x.kinds (u.map scopeEvent) = some kinds →
      Tracks base (u.foldl (Progress.next n) x).state (u.foldl (Progress.next n) x).scopes ∧
        (u.foldl (Progress.next n) x).kinds = kinds
  | [], x, h, _, kinds, hrun => ⟨h, Option.some.inj hrun⟩
  | v :: u, x, h, hmid, kinds, hrun => by
    obtain ⟨kinds₁, hone, hrest⟩ := Option.bind_eq_some_iff.mp hrun
    obtain ⟨hnext, hkinds⟩ := h.next (hmid v List.mem_cons_self) hone n
    rw [← hkinds] at hrest
    exact foldl hnext (fun w hw => hmid w (List.mem_cons_of_mem v hw)) hrest

theorem isSome_of_agrees : ∀ {l : List VulkanCommandInfo} {x : Progress},
    Tracks base x.state x.scopes →
    (∀ v ∈ l, commandKind v.name.text ≠ .beginCommandBuffer ∧
      commandKind v.name.text ≠ .endCommandBuffer) →
    (∀ kind, (Monitor.run (depth kind) (x.kinds.count kind) (l.map scopeEvent)).isSome) →
    (∀ u, u <+: l → (u.foldl (Progress.next n) x).Agrees) →
      (Monitor.run nest x.kinds (l.map scopeEvent)).isSome
  | [], _, _, _, _, _ => rfl
  | v :: l, x, h, hmid, hdepth, hagrees => by
    have hclosing : ∀ kind, scopeEvent v = some (.closes kind) → kind ∈ x.kinds := by
      intro kind hkind
      obtain ⟨d, hd⟩ := Option.isSome_iff_exists.mp (hdepth kind)
      obtain ⟨d', hd', -⟩ := Option.bind_eq_some_iff.mp hd
      exact mem_of_depth (hkind ▸ hd')
    cases hnest : nest x.kinds (scopeEvent v) with
    | none => exact absurd (hagrees [v] ⟨l, rfl⟩) (h.next_ne hnest hclosing n)
    | some kinds =>
      obtain ⟨hnext, hkinds⟩ := h.next (hmid v List.mem_cons_self) hnest n
      rw [List.map_cons, Monitor.run_cons_of hnest, ← hkinds]
      refine isSome_of_agrees hnext (fun w hw => hmid w (List.mem_cons_of_mem v hw)) ?_ ?_
      · intro kind
        have hone := hdepth kind
        rw [List.map_cons, Monitor.run_cons_of (depth_of_nest hnest kind)] at hone
        rw [hkinds]
        exact hone
      · exact fun u hu => hagrees (v :: u) (List.cons_prefix_cons.mpr ⟨rfl, hu⟩)

end Tracks

/-! ## The whole command buffer -/

section Recording

variable {b e : VulkanCommandInfo} {mid : List VulkanCommandInfo}

theorem run_skip {S : Type} {δ : S → Option ScopeEvent → Option S} (hskip : ∀ v, δ v none = some v)
    (hb : scopeEvent b = none) (he : scopeEvent e = none) (v : S) :
    Monitor.run δ v ((b :: (mid ++ [e])).map scopeEvent) = Monitor.run δ v (mid.map scopeEvent) := by
  rw [List.map_cons, hb, Monitor.run_cons_of (hskip v), List.map_append]
  generalize mid.map scopeEvent = events
  induction events generalizing v with
  | nil => simp [Monitor.run, he, hskip]
  | cons event events ih =>
    rw [List.cons_append, Monitor.run, Monitor.run]
    cases δ v event with
    | none => rfl
    | some w => exact ih w

theorem scopeEvent_begin (h : commandKind b.name.text = .beginCommandBuffer) :
    scopeEvent b = none := by
  rw [scopeEvent, h]

theorem scopeEvent_end (h : commandKind e.name.text = .endCommandBuffer) :
    scopeEvent e = none := by
  rw [scopeEvent, h]

theorem tracks_begin {base : ℕ} {s : State} (hfilled : Filled base s)
    (hstack : s.curParentNodeIndexStack = [])
    (hb : commandKind b.name.text = .beginCommandBuffer) (n : ℕ) (counts : List ℕ) :
    Tracks base ((⟨s, counts, []⟩ : Progress).next n b).state [] := by
  have hplace := extends_place s s.curSubmitNodeIndex .kGfxrVulkanBeginCommandBufferNode
    (.command b.name.text b.args (some n)) b.args
  have hlength := hfilled.length_nodes
  have hstate : ((⟨s, counts, []⟩ : Progress).next n b).state =
      (s.place s.curSubmitNodeIndex .kGfxrVulkanBeginCommandBufferNode
        (.command b.name.text b.args (some n)) b.args).withCommandBuffer s.nodes.length := by
    rw [Tracks.next_state]
    simp only [hb, commandNode]
    rfl
  have hlt : s.nodes.length < (s.place s.curSubmitNodeIndex .kGfxrVulkanBeginCommandBufferNode
      (.command b.name.text b.args (some n)) b.args).nodes.length := place_length _ _
  rw [hstate]
  exact {
    filled := (extends_withCommandBuffer _ _).filled base (hplace.1.filled base hfilled)
    stack := hplace.2.stack.trans hstack
    commandBuffer := ⟨Nat.le.intro hlength.symm, hlt⟩
    bounds := by simp
    label := by simp
    static := by simp
    sorted := .nil }

theorem Tracks.next_end {base : ℕ} {x : Progress} (h : Tracks base x.state x.scopes)
    (he : commandKind e.name.text = .endCommandBuffer) (n : ℕ) :
    Tracks base (x.next n e).state x.scopes ∧ (x.next n e).scopes = x.scopes := by
  rw [Tracks.next_state, Tracks.next_scopes, scopeEvent_end he]
  simp only [he, commandNode]
  exact ⟨h.place _ _ _ _, rfl⟩

theorem mem_childrenAt_processVkCmds {start : Progress} {u vkCmds : List VulkanCommandInfo}
    {v : VulkanCommandInfo} {n p c : ℕ} (hinitial : u ++ [v] <+: vkCmds)
    (hp : p < (u.foldl (Progress.next n) start).state.nodes.length)
    (hc : c ∈ ((u.foldl (Progress.next n) start).next n v).state.childrenAt p) :
    c ∈ (start.state.processVkCmds vkCmds n start.counts).childrenAt p := by
  obtain ⟨rest, rfl⟩ := hinitial
  have hrest := Progress.extends_foldl n rest ((u.foldl (Progress.next n) start).next n v)
  have hone := Progress.extends_foldl n [v] (u.foldl (Progress.next n) start)
  have hfinal := hrest.children p (hp.trans_le hone.length_le) c hc
  rw [State.processVkCmds, Progress.onCommands_eq, List.foldl_append, List.foldl_append]
  exact hfinal

/-- **The scopes nest exactly when no dynamic rendering begins and each end finds a scope of its
kind innermost.** -/
theorem scopesNest_iff {s : State} (hs : Reached s) {vkCmds : List VulkanCommandInfo}
    (hrecording : IsRecording vkCmds) (hbalanced : ∀ kind, Balanced kind vkCmds) (n : ℕ)
    (counts : List ℕ) : ScopesNest s n counts vkCmds ↔ WellNested vkCmds := by
  obtain ⟨⟨base, hfilled⟩, hstack⟩ := hs.filled
  obtain ⟨b, mid, e, rfl, hb, he, hmid⟩ := hrecording
  have hbegin := tracks_begin hfilled hstack hb n counts
  generalize hstart : (⟨s, counts, []⟩ : Progress) = start at hbegin
  have hscopes : (start.next n b).scopes = [] := by
    rw [Tracks.next_scopes, scopeEvent_begin hb, ← hstart]
    rfl
  have hkinds : (start.next n b).kinds = [] := by rw [Progress.kinds, hscopes, List.map_nil]
  rw [← hscopes] at hbegin
  have hnested : WellNested (b :: (mid ++ [e])) ↔
      (Monitor.run nest (start.next n b).kinds (mid.map scopeEvent)).isSome := by
    rw [WellNested, run_skip (fun _ => rfl) (scopeEvent_begin hb) (scopeEvent_end he), hkinds]
  have hdepth : ∀ kind, Monitor.run (depth kind) 0 (mid.map scopeEvent) = some 0 := by
    intro kind
    have h := hbalanced kind
    rwa [Balanced, run_skip (fun _ => rfl) (scopeEvent_begin hb) (scopeEvent_end he)] at h
  rw [hnested]
  constructor
  · intro h
    refine @Tracks.isSome_of_agrees base n mid _ hbegin hmid (fun kind => ?_) fun u hu => ?_
    · rw [hkinds, List.count_nil, hdepth]
      rfl
    · have hinitial : b :: u <+: b :: (mid ++ [e]) :=
        List.cons_prefix_cons.mpr ⟨rfl, hu.trans (List.prefix_append mid [e])⟩
      have hagrees := h.agrees _ hinitial
      rwa [hstart] at hagrees
  · intro h
    obtain ⟨kinds, hrun⟩ := Option.isSome_iff_exists.mp h
    have htracks : ∀ w, w <+: mid → Tracks base (w.foldl (Progress.next n) (start.next n b)).state
        (w.foldl (Progress.next n) (start.next n b)).scopes := by
      rintro w ⟨rest, rfl⟩
      rw [List.map_append] at hrun
      obtain ⟨kinds', hw⟩ := Monitor.run_prefix hrun
      exact (hbegin.foldl (fun v hv => hmid v (List.mem_append_left _ hv)) hw).1
    have hdone : (mid.foldl (Progress.next n) (start.next n b)).scopes = [] := by
      have hkinds' := (@Tracks.foldl base n mid _ hbegin hmid kinds hrun).2
      have hcount : ∀ kind, kinds.count kind = 0 := by
        intro kind
        have hd := run_depth_of_nest hrun kind
        rw [hkinds, List.count_nil, hdepth] at hd
        exact (Option.some.inj hd).symm
      rw [List.eq_nil_iff_forall_not_mem.mpr fun k hk => List.count_eq_zero.mp (hcount k) hk,
        Progress.kinds, List.map_eq_nil_iff] at hkinds'
      exact hkinds'
    have hend := (htracks mid List.prefix_rfl).next_end he n
    have hlast : ((b :: (mid ++ [e])).foldl (Progress.next n) start) =
        (mid.foldl (Progress.next n) (start.next n b)).next n e := by
      rw [List.foldl_cons, List.foldl_append]
      rfl
    refine ⟨?_, ?_, ?_⟩
    · intro u hu
      rw [hstart]
      rcases u with - | ⟨a, w⟩
      · rw [List.foldl_nil, Progress.Agrees, ← hstart]
        exact hstack
      · obtain ⟨rfl, hw⟩ := List.cons_prefix_cons.mp hu
        rcases List.prefix_concat_iff.mp hw with rfl | hw
        · rw [hlast, Progress.Agrees, hend.2]
          exact hend.1.stack
        · exact (htracks w hw).stack
    · intro u v hne hu hnode
      rw [hstart]
      obtain ⟨a, w, rfl⟩ := List.exists_cons_of_ne_nil hne
      rw [List.cons_append] at hu
      obtain ⟨rfl, hw⟩ := List.cons_prefix_cons.mp hu
      have hplace : w <+: mid ∧ (w.foldl (Progress.next n) (start.next n a)).state.parentFor
          (commandKind v.name.text) = (w.foldl (Progress.next n) (start.next n a)).innermost := by
        rcases List.prefix_concat_iff.mp hw with hw | hw
        · obtain ⟨rfl, hv⟩ := List.append_inj' hw rfl
          obtain rfl := List.cons.inj hv |>.1
          refine ⟨List.prefix_rfl, ?_⟩
          rw [he, Progress.innermost, hdone]
          rfl
        · have hinitial := (List.prefix_append w [v]).trans hw
          refine ⟨hinitial, ?_⟩
          rw [(htracks w hinitial).innermost_eq]
          have hv := hmid v (hw.subset (by simp))
          cases hkind : commandKind v.name.text <;> simp_all [parentFor]
      have htrack := htracks w hplace.1
      have hbounds := htrack.openParent
      rw [← htrack.innermost_eq] at hbounds
      have hchild := htrack.child_next hplace.2 hnode ⟨hbounds.1, hbounds.2.1⟩ n
      have hfinal := @mem_childrenAt_processVkCmds start (a :: w) _ v n _ _ hu hbounds.2.1 hchild
      rw [← hstart] at hfinal ⊢
      exact hfinal
    · rw [hstart, hlast, hend.1.stack, hdone]
      rfl

end Recording

/-- A label that ends inside the render pass that began in it. -/
def crossedScopes : List VulkanCommandInfo :=
  [.vkBeginCommandBuffer, .vkCmdBeginDebugUtilsLabelEXT,
    .vkCmdBeginRenderPass, .vkCmdEndDebugUtilsLabelEXT,
    .vkCmdEndRenderPass, .vkCmdDraw,
    .vkEndCommandBuffer].map fun name => .of (createCommandData name 1001)

theorem isRecording_crossedScopes : IsRecording crossedScopes :=
  ⟨_, crossedScopes.tail.dropLast, _, rfl, by decide +kernel, by decide +kernel, by decide +kernel⟩

theorem balanced_crossedScopes (kind : ScopeKind) : Balanced kind crossedScopes := by
  cases kind <;> unfold Balanced <;> decide +kernel

theorem scopesNest_iff_crossedScopes :
    ScopesNest alone.addFrame 1 [1] crossedScopes ↔ WellNested crossedScopes :=
  scopesNest_iff .alone isRecording_crossedScopes balanced_crossedScopes 1 [1]

/-- The end of the label is ignored, and the end of the render pass leaves the label open. -/
theorem crossedScopes_not_nest : IsRecording crossedScopes ∧
    (∀ kind, Balanced kind crossedScopes) ∧
      ¬ ScopesNest alone.addFrame 1 [1] crossedScopes := by
  refine ⟨isRecording_crossedScopes, balanced_crossedScopes, fun h => ?_⟩
  have hagrees := h.agrees (crossedScopes.take 5) (List.take_prefix 5 _)
  revert hagrees
  unfold Progress.Agrees
  decide +kernel

end Dive.GfxrVulkanCommandHierarchyCreator
