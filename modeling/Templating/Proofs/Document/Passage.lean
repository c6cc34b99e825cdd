import Templating.Proofs.Document.Course
import Templating.Proofs.Machine.Cursor

namespace Templating

namespace Setting
variable {setting : Setting} {n m : Node} {left : List Piece}

/-- The pieces that a node has still to pass. -/
inductive Remains (setting : Setting) (n : Node) : List Piece → Prop
  | pending : n.phase = .pending → Remains setting n (setting.scanner.pieces n.source)
  | scanning {hits} : n.phase = .scanning → setting.scanner.skips n.source = false →
      setting.scanner.Yields n.source n.index hits → Remains setting n (Scanner.cut n.source n.index hits)
  | finished : n.phase = .finished → Remains setting n []

/-- What a node has still to pass depends on its source, its phase and its cursor. -/
theorem Remains.congr (remains : setting.Remains n left) (same : m.cursor = n.cursor) : setting.Remains m left := by
  have source : m.source = n.source := congrArg Prod.fst same
  have index : m.index = n.index := congrArg (·.2.1) same
  have phase : m.phase = n.phase := congrArg (·.2.2) same
  cases remains with
  | pending pending =>
    rw [← source]
    exact .pending (phase.trans pending)
  | scanning scanning kept yields =>
    rw [← source, ← index] at yields ⊢
    exact .scanning (phase.trans scanning) (source ▸ kept) yields
  | finished finished => exact .finished (phase.trans finished)

/-- A turn passes the first of the pieces that remain, or all of them when the node skips or comes to its end. -/
theorem Remains.turn (remains : setting.Remains n left) (sound : n.Sound) (unfinished : n.phase ≠ .finished)
    (turned : m.cursor = (n.source, setting.stands n)) :
    ∃ rest, setting.Remains m rest ∧ left = setting.passes n ++ rest := by
  have source : m.source = n.source := congrArg Prod.fst turned
  have stands : (m.index, m.phase) = setting.stands n := congrArg Prod.snd turned
  cases remains with
  | pending pending =>
    cases skips : setting.scanner.skips n.source with
    | true =>
      obtain ⟨passes, finished⟩ := passes_skip pending skips
      refine ⟨[], .finished (congrArg Prod.snd (stands.trans finished)), ?_⟩
      rw [Scanner.pieces, if_pos skips, passes, List.append_nil]
    | false =>
      obtain ⟨passes, begun⟩ := passes_begin pending skips
      have index : m.index = 0 :=
        (congrArg Prod.fst (stands.trans begun)).trans (sound.pending_index pending)
      have yields := setting.scanner.yields_hits m.source
      rw [← index] at yields
      refine ⟨_, .scanning (congrArg Prod.snd (stands.trans begun)) (source ▸ skips) yields, ?_⟩
      rw [Scanner.pieces, if_neg (by rw [skips]; decide), passes, List.nil_append, index, source]
  | scanning scanning kept yields =>
    cases yields with
    | none nothing =>
      obtain ⟨passes, finished⟩ := passes_tail scanning nothing
      refine ⟨[], .finished (congrArg Prod.snd (stands.trans finished)), ?_⟩
      rw [passes, Scanner.cut, List.append_nil]
    | some found more =>
      obtain ⟨passes, passed⟩ := passes_hit scanning found
      have index := congrArg Prod.fst (stands.trans passed)
      dsimp only at index
      rw [← index, ← source] at more
      refine ⟨_, .scanning (congrArg Prod.snd (stands.trans passed)) (source ▸ kept) more, ?_⟩
      rw [passes, Scanner.cut, index, source]
      rfl
  | finished finished => exact absurd finished unfinished

/-- What a node has passed and what it has still to pass make up its source. -/
def Accounts (setting : Setting) (passed : List Piece) : Option Node → Prop
  | none => passed = []
  | some n => ∃ left, setting.Remains n left ∧ passed ++ left = setting.scanner.pieces n.source

/-- After a turn of its own a node has passed the pieces of that turn as well, and the rest is still ahead. -/
theorem Accounts.turn {passed : List Piece} (accounts : setting.Accounts passed (some n)) (sound : n.Sound)
    (unfinished : n.phase ≠ .finished) (turned : m.cursor = (n.source, setting.stands n)) :
    setting.Accounts (passed ++ setting.passes n) (some m) := by
  obtain ⟨left, remains, whole⟩ := accounts
  obtain ⟨rest, remains', rfl⟩ := remains.turn sound unfinished turned
  refine ⟨rest, remains', ?_⟩
  rw [List.append_assoc, whole]
  exact congrArg _ (congrArg Prod.fst turned).symm

/-- The turn of another node changes nothing of this, also if it is the one that makes the node. -/
theorem Accounts.elsewhere {passed : List Piece} {c i : NodeId} {nodes later : Array Node}
    (accounts : setting.Accounts passed nodes[i]?) (elsewhere : Elsewhere c nodes later) (other : i ≠ c) :
    setting.Accounts passed later[i]? := by
  cases before : nodes[i]? with
  | none =>
    rw [before] at accounts
    cases after : later[i]? with
    | none => exact accounts
    | some m => exact ⟨_, .pending (elsewhere.fresh before after), by rw [accounts, List.nil_append]⟩
  | some n =>
    rw [before] at accounts
    obtain ⟨left, remains, whole⟩ := accounts
    obtain ⟨m, after, same⟩ := elsewhere.kept other before
    rw [after]
    exact ⟨left, remains.congr same, whole.trans (congrArg _ (congrArg Prod.fst same).symm)⟩

end Setting

namespace Document
variable {d : Document} {load : Loader} {i : NodeId} {n : Nat} {node : Node}

/-- The pieces of its source that a node passes with the move after a moment. -/
def piecesAt (d : Document) (load : Loader) (i : NodeId) (n : Nat) : List Piece :=
  let s := d.moment load n
  if s.ended = false ∧ s.current = i then s.nodes[i]?.elim [] d.setting.passes else []

/-- The pieces of its source that a node has passed at a moment. -/
def passed (d : Document) (load : Loader) (i : NodeId) (n : Nat) : List Piece :=
  (List.range n).flatMap (d.piecesAt load i)

/-- What a node has passed grows by the pieces of each move, in the order of the moves. -/
theorem passed_succ (d : Document) (load : Loader) (i : NodeId) (n : Nat) :
    d.passed load i (n + 1) = d.passed load i n ++ d.piecesAt load i n := by
  rw [passed, List.range_succ, List.flatMap_append, List.flatMap_singleton]
  rfl

theorem passed_succ_of_atWork (going : (d.moment load n).ended = false)
    (atWork : (d.moment load n).nodes[(d.moment load n).current]? = some node) :
    d.passed load (d.moment load n).current (n + 1) =
      d.passed load (d.moment load n).current n ++ d.setting.passes node := by
  rw [passed_succ, piecesAt, if_pos ⟨going, rfl⟩, atWork, Option.elim_some]

theorem passed_succ_of_other (other : ¬((d.moment load n).ended = false ∧ (d.moment load n).current = i)) :
    d.passed load i (n + 1) = d.passed load i n := by
  rw [passed_succ, piecesAt, if_neg other, List.append_nil]

/-- At every moment the source of a node is what it has passed and what it has still to pass. By induction on the
moments. -/
theorem Made.accounts (made : d.Made) (load : Loader) (i : NodeId) (n : Nat) :
    d.setting.Accounts (d.passed load i n) (d.moment load n).nodes[i]? := by
  induction n with
  | zero =>
    cases here : (d.moment load 0).nodes[i]? with
    | none => rfl
    | some node =>
      have pending : node.phase = .pending := by
        have single : (#[d.page] : Array Node)[i]? = some node := here
        rw [Array.getElem?_singleton] at single
        split at single <;> cases single
        exact (congrArg Node.phase made.fresh :)
      exact ⟨_, .pending pending, rfl⟩
  | succ n ih =>
    cases going : (d.moment load n).ended with
    | true =>
      rw [moment_succ_of_ended going, passed_succ_of_other fun both => by rw [going] at both; cases both.1]
      exact ih
    | false =>
      obtain ⟨node, atWork, unfinished, turn⟩ := made.turn going
      have moves := turn.moves atWork unfinished
      -- Only the node at work passes pieces; the account of any other is carried along with its cursor.
      by_cases here : i = (d.moment load n).current
      · subst here
        obtain ⟨m, after, turned⟩ := Option.map_eq_some_iff.mp moves.here
        rw [atWork] at ih
        rw [after, passed_succ_of_atWork going atWork]
        exact ih.turn ((made.linked load n).sound atWork) unfinished turned
      · rw [passed_succ_of_other fun both => here both.2.symm]
        exact ih.elsewhere moves.elsewhere here

/-- When a node is through, it has passed its whole source, every piece once and in order. -/
theorem Made.passed_of_finished (made : d.Made) (here : (d.moment load n).nodes[i]? = some node)
    (finished : node.phase = .finished) : d.passed load i n = d.setting.scanner.pieces node.source := by
  have accounts := made.accounts load i n
  rw [here] at accounts
  obtain ⟨left, remains, whole⟩ := accounts
  cases remains with
  | finished => rwa [List.append_nil] at whole
  | pending other | scanning other =>
    rw [finished] at other
    cases other

/-- How a run goes through the sources of its nodes. -/
structure ScansThrough (d : Document) (load : Loader) : Prop where
  /-- A step that finds a directive moves the cursor forward, to the end of the directive. -/
  forward : ∀ (n : Nat) (node : Node) (hit : Hit), (d.moment load n).ended = false →
    (d.moment load n).nodes[(d.moment load n).current]? = some node → node.phase = .scanning →
    d.setting.scanner.next? node.source node.index = some hit →
    Scanner.Fits node.source node.index hit ∧ ∃ later : Node,
      (d.moment load (n + 1)).nodes[(d.moment load n).current]? = some later ∧ later.source = node.source ∧
        later.index = hit.stop ∧ node.index < later.index ∧ later.index ≤ Text.size later.source
  /-- All cursors are inside their sources and at edges of characters. -/
  inside : ∀ (n : Nat) (i : NodeId) (node : Node), (d.moment load n).nodes[i]? = some node →
    Text.IsBoundary node.source node.index ∧ node.index ≤ Text.size node.source
  /-- The gaps are sent when they are passed. -/
  sends : ∀ (n : Nat) (node : Node), (d.moment load n).ended = false →
    (d.moment load n).nodes[(d.moment load n).current]? = some node →
    ∃ r : Run, (d.moment load (n + 1)).output = (d.moment load n).output ++
      .text (Piece.literal node.source (d.setting.passes node)) node.role ++ r
  /-- A node that is through has passed the pieces of its source: every byte of it belongs to one of the gaps
  and directives that are passed, and to no other. -/
  through : ∀ (n : Nat) (i : NodeId) (node : Node), (d.moment load n).nodes[i]? = some node →
    node.phase = .finished → d.passed load i n = d.setting.scanner.pieces node.source ∧
      (∀ offset < Text.size node.source, (d.passed load i n).countP (Piece.covers offset) = 1) ∧
      String.join ((d.passed load i n).map (Piece.text node.source)) = node.source

end Document

/-- The scan divides every text, and a document scans the sources of its nodes through, each once. The cursor only
moves forward and is at the edge of a character at all times; that the run comes to an end is not assumed. -/
theorem Composer.scans_through (c : Composer) (load : Loader) :
    (∀ text, c.scanner.Divides text) ∧
      ∀ {src source d}, c.document src source = .ok d → d.ScansThrough load := by
  refine ⟨c.scanner.divides, fun {src source d} made => ?_⟩
  have made := c.made made
  have inside {n : Nat} {i : NodeId} {node : Node} (here : (d.moment load n).nodes[i]? = some node) :
      Text.IsBoundary node.source node.index := ((made.linked load n).sound here).boundary
  refine ⟨fun n node hit going atWork scanning found => ?_,
    fun n i node here => ⟨inside here, (inside here).le_size⟩, fun n node going atWork => ?_,
    fun n i node here finished => ?_⟩
  · have fits := Scanner.fits_of_next? (inside atWork) found
    obtain ⟨worker, atWork', unfinished, turn⟩ := made.turn going
    cases Option.some.inj (atWork'.symm.trans atWork)
    obtain ⟨later, after, turned⟩ := Option.map_eq_some_iff.mp (turn.moves atWork unfinished).here
    rw [(Setting.passes_hit scanning found).2] at turned
    have source : later.source = node.source := congrArg Prod.fst turned
    have index : later.index = hit.stop := congrArg (·.2.1) turned
    refine ⟨fits, later, after, source, index, ?_, ?_⟩
    · rw [index]
      exact Nat.lt_of_le_of_lt fits.behind fits.nonempty
    · rw [index, source]
      exact fits.le_size
  · obtain ⟨worker, atWork', unfinished, turn⟩ := made.turn going
    cases Option.some.inj (atWork'.symm.trans atWork)
    exact (turn.moves atWork unfinished).sends
  · have tiles := d.setting.scanner.tiles_pieces node.source
    rw [made.passed_of_finished here finished]
    refine ⟨rfl, fun offset within => ?_, tiles.join_text_whole⟩
    rw [tiles.countP_covers, if_pos ⟨Nat.zero_le _, within⟩]

theorem Composer.scans_through_plain :
    ∃ d, plain.document ⟨"page.html"⟩ "a <!-- include(part.html) -->" = .ok d ∧
      d.ScansThrough (fun _ => .ok "part") ∧
      d.passed (fun _ => .ok "part") 0 9 = [.gap 0 2, .hit ⟨2, 29, .inclusion "part.html"⟩, .gap 29 29] ∧
      d.passed (fun _ => .ok "part") 1 9 = [.gap 0 4] := by
  have made : plain.document ⟨"page.html"⟩ "a <!-- include(part.html) -->" = .ok _ := if_neg (by decide)
  exact ⟨_, made, (plain.scans_through _).2 made, by decide +kernel, by decide +kernel⟩

end Templating
