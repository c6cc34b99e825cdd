import Templating.Proofs.Control.Basic
import Templating.Proofs.Machine.Links

namespace Templating

/-- What the loader reads at canonical paths lies among some paths and is not too long. -/
def Loader.Within (load : Loader) (paths : List Path) (longest : Nat) : Prop :=
  ∀ {path : Path} {source : String}, path.normalize = path → load path = .ok source →
    path ∈ paths ∧ source.length ≤ longest

/-- The number of paths that are not on a chain. -/
def spare (paths chain : List Path) : Nat := (paths.filter (· ∉ chain)).length

theorem spare_le (paths chain : List Path) : spare paths chain ≤ paths.length := List.length_filter_le _ _

/-- A path that is new to a chain leaves fewer paths that are not on it. This is what bounds the depth of inclusions
and the number of layouts. -/
theorem spare_cons_lt {paths chain : List Path} {path : Path} (member : path ∈ paths) (new : path ∉ chain) :
    spare paths (path :: chain) < spare paths chain := by
  have split : paths.filter (· ∉ path :: chain) = (paths.filter (· ∉ chain)).filter (· ≠ path) := by
    rw [List.filter_filter]
    refine List.filter_congr fun p _ => ?_
    simp only [List.mem_cons, not_or, Bool.decide_and]
  -- The path itself is what the longer chain takes away.
  rw [spare, split, spare, List.length_filter_lt_length_iff_exists]
  exact ⟨path, List.mem_filter.mpr ⟨member, decide_eq_true new⟩, by simp⟩

/-- A bound on the steps that a text takes which another includes, if so many paths are not on the
chain of the other. -/
def cost (longest : Nat) : (spare : Nat) → Nat
  | 0 => 0
  | spare + 1 => 1 + (longest + 1) * (1 + cost longest spare)

theorem cost_le_succ (longest b : Nat) : cost longest b ≤ cost longest (b + 1) := by
  induction b with
  | zero => exact Nat.zero_le _
  | succ b ih =>
    rw [cost, cost]
    exact Nat.add_le_add_left (Nat.mul_le_mul_left _ (Nat.add_le_add_left ih 1)) 1

/-- Including a text may cost more steps if more paths are not on its chain, and never fewer. -/
theorem cost_mono {longest b c : Nat} (le : b ≤ c) : cost longest b ≤ cost longest c := by
  induction le with
  | refl => exact Nat.le_refl _
  | step _ ih => exact Nat.le_trans ih (cost_le_succ ..)

/-- The sum of the weights of some texts. -/
def total {α : Type} (weight : α → Nat) : List α → Nat
  | [] => 0
  | a :: rest => weight a + total weight rest

section Weights
variable (paths : List Path) (longest : Nat)

/-- The weight of a text that waits to be wrapped. -/
def Node.weight (n : Node) : Nat := (n.source.length + 1) * (1 + cost longest paths.length)

def Filling.weight : Filling → Nat
  | .nothing | .placed => 0
  | .wrapped inner more => total (Node.weight paths longest) (inner :: more)

/-- The sources of a text at work and of those that include it. -/
def Frame.chain (f : Frame) : List Path := f.node.src :: f.includers

/-- The number of characters that are left of a text at work. -/
def Frame.left (f : Frame) : Nat := (Text.dropBytes f.start f.node.source.toList).length

def Frame.weight (f : Frame) : Nat :=
  (f.left + 1) * (1 + cost longest (spare paths f.chain)) + f.filling.weight paths longest

/-- What a new layout can add to the weight. -/
def layer : Nat := (longest + 1) * (1 + cost longest paths.length)

def Control.weight : Control → Nat
  | .outer inner node =>
    spare paths ((node :: inner).map Node.src) * (layer paths longest + 1) + 1 +
      total (Node.weight paths longest) (node :: inner)
  | .entered frame waiting => 1 + frame.weight paths longest + total (Frame.weight paths longest) waiting
  | .scanning frame waiting => frame.weight paths longest + total (Frame.weight paths longest) waiting
  | .done => 0

end Weights

/-- The place in the source of the text at work is at the edge of a character. -/
def Control.Aligned : Control → Prop
  | .scanning frame _ => Text.IsBoundary frame.node.source frame.start
  | .outer _ _ | .entered _ _ | .done => True

section Steps
variable {paths : List Path} {longest : Nat} {setting : Setting} {load : Loader} {frame : Frame}
  {waiting : List Frame} {control after : Control} {piece : Run}

theorem weight_ofList (inner : List Node) :
    (Filling.ofList inner).weight paths longest = total (Node.weight paths longest) inner := by
  cases inner <;> rfl

theorem left_start (chain : List Path) (filling : Filling) (node : Node) :
    (Frame.mk chain filling node 0).left = node.source.length := by
  rw [Frame.left, Text.dropBytes, String.length_toList]

/-- A node that gets control in a slot weighs no more than it did while it waited there. -/
theorem weight_body_le (paths : List Path) (longest : Nat) (inner : Node) (more : List Node) :
    (Frame.mk [] (.ofList more) inner 0).weight paths longest ≤
      total (Node.weight paths longest) (inner :: more) := by
  rw [Frame.weight, left_start, weight_ofList, total]
  exact Nat.add_le_add_right (Nat.mul_le_mul_left _ (Nat.add_le_add_left (cost_mono (spare_le ..)) 1)) _

/-- Passing a hit makes a text lighter, by what including a text may cost and more, because a hit is at least one
character long. The place must be at the edge of a character. -/
theorem weight_behind_lt (paths : List Path) (longest : Nat)
    (aligned : Text.IsBoundary frame.node.source frame.start) {hit : Hit}
    (found : setting.scanner.next? frame.node.source frame.start = some hit) :
    ({ frame with start := hit.stop } : Frame).weight paths longest + cost longest (spare paths frame.chain) <
      frame.weight paths longest := by
  have fewer : ({ frame with start := hit.stop } : Frame).left + 1 ≤ frame.left :=
    setting.scanner.dropBytes_stop_lt aligned found
  have lighter := Nat.mul_le_mul_right (1 + cost longest (spare paths frame.chain)) (Nat.add_le_add_right fewer 1)
  rw [Nat.add_one_mul] at lighter
  simp only [Frame.weight, Frame.chain] at lighter ⊢
  omega

/-- A text that is to be included weighs no more than including it may cost, if its path is not on the chain yet and
the loader reads no longer texts than assumed. -/
theorem weight_entered_le (within : load.Within paths longest) {path : Path} {source : String} (root : Path)
    (canonical : path.normalize = path) (loaded : load path = .ok source) {chain : List Path}
    (new : path ∉ chain) :
    1 + (Frame.mk chain .nothing (.new path root source .included) 0).weight paths longest ≤
      cost longest (spare paths chain) := by
  obtain ⟨member, short⟩ := within canonical loaded
  have less : spare paths (path :: chain) + 1 ≤ spare paths chain := spare_cons_lt member new
  refine Nat.le_trans ?_ (cost_mono less)
  rw [cost, Frame.weight, left_start]
  exact Nat.add_le_add_left (Nat.mul_le_mul_right _ (Nat.succ_le_succ short)) 1

/-- A new layout makes the stack lighter, although its whole text is added: it takes one of the paths that are not
among the nodes inside. -/
theorem weight_wrap_lt (within : load.Within paths longest) {target root : Path} {source : String}
    (canonical : target.normalize = target) (loaded : load target = .ok source) {inner : List Node} {node : Node}
    (straight : (node :: inner).any (·.src == target) = false) :
    (Control.outer (node :: inner) (.new target root source .layout)).weight paths longest <
      (Control.outer inner node).weight paths longest := by
  obtain ⟨member, short⟩ := within canonical loaded
  have new : target ∉ (node :: inner).map Node.src := by
    intro again
    obtain ⟨n, inside, src⟩ := List.mem_map.mp again
    have circle := List.any_eq_false.mp straight n inside
    exact circle (beq_iff_eq.mpr src)
  have less := Nat.mul_le_mul_right (layer paths longest + 1) (spare_cons_lt member new)
  have added : (Node.new target root source .layout).weight paths longest ≤ layer paths longest :=
    Nat.mul_le_mul_right _ (Nat.succ_le_succ short)
  rw [Nat.succ_mul] at less
  simp only [Control.weight, total, List.map_cons, Node.new] at less added ⊢
  omega

theorem weight_resume (waiting : List Frame) :
    (Control.resume waiting).weight paths longest = total (Frame.weight paths longest) waiting := by
  cases waiting <;> rfl

theorem weight_pos (frame : Frame) : 0 < frame.weight paths longest := by
  have positive : 0 < (frame.left + 1) * (1 + cost longest (spare paths frame.chain)) :=
    Nat.mul_pos (Nat.succ_pos _) (by omega)
  exact Nat.lt_of_lt_of_le positive (Nat.le_add_right _ _)

/-- Passing a hit adds no more weight than including a text may cost, in whatever way the hit is passed. -/
theorem Control.Passing.weight_le (within : load.Within paths longest) {next : Frame} {hit : Hit}
    (passing : Control.Passing setting load next hit waiting piece after) :
    after.weight paths longest ≤
      (Control.scanning next waiting).weight paths longest + cost longest (spare paths next.chain) := by
  cases passing with
  | data | decided | slotKept | slotPlaced | spliceCircle | spliceUnreadable => exact Nat.le_add_right _ _
  | @slot inner more _ offer =>
    have body := weight_body_le paths longest inner more
    simp only [Control.weight, total, Frame.weight, Filling.weight, Frame.left, Frame.chain, offer] at body ⊢
    omega
  | @splice argument source _ straight loaded =>
    have new : next.node.includeTarget argument ∉ next.chain := by
      rw [Frame.chain, List.mem_cons, eq_comm]
      exact straight
    have canonical := next.node.normalize_includeTarget argument
    have entered := weight_entered_le within next.node.root canonical loaded new
    simp only [Control.weight, total, Frame.chain] at entered ⊢
    omega

/-- Every step makes the stack lighter. So a run ends if what the loader reads lies among finitely many paths; that no
text asks for itself need not be assumed. -/
theorem Control.Stepping.weight_lt (within : load.Within paths longest) (canonical : setting.Canonical)
    (stepping : Control.Stepping setting load control piece after) (aligned : control.Aligned)
    (going : control ≠ .done) : after.weight paths longest < control.weight paths longest := by
  have bare (inner : List Node) (node : Node) :
      (Control.scanning ⟨[], .ofList inner, node, 0⟩ []).weight paths longest <
        (Control.outer inner node).weight paths longest := by
    have body := weight_body_le paths longest node inner
    simp only [Control.weight, total] at body ⊢
    omega
  cases stepping with
  | @outerSkip inner node => exact Nat.lt_of_le_of_lt (Nat.zero_le _) (bare inner node)
  | bare | layoutCircle | layoutUnreadable => exact bare ..
  | layout _ requested straight loaded =>
    exact weight_wrap_lt within (canonical.requestedLayout requested).1 loaded straight
  | enteredSkip =>
    rw [weight_resume, Control.weight]
    omega
  | enteredScan =>
    rw [Control.weight, Control.weight]
    omega
  | @tail frame =>
    rw [weight_resume, Control.weight]
    exact Nat.lt_add_of_pos_left (weight_pos frame)
  | hit found passing =>
    have behind := weight_behind_lt paths longest aligned found
    have passed := passing.weight_le within
    simp only [Control.weight] at passed ⊢
    refine Nat.lt_of_le_of_lt passed ?_
    rw [Nat.add_right_comm]
    exact Nat.add_lt_add_right behind _
  | done => exact absurd rfl going

end Steps

end Templating
