import Templating.Proofs.Scan.Layouts

namespace Templating

namespace Text
variable {source : String} {start middle stop : Nat}

theorem slice_append (first : IsBoundary source start) (second : IsBoundary source middle)
    (third : IsBoundary source stop) (before : start ≤ middle) (after : middle ≤ stop) :
    slice source start middle ++ slice source middle stop = slice source start stop := by
  obtain ⟨front, cs, split, rfl⟩ := isBoundary_iff.mp first
  obtain ⟨upTo, ds, split', rfl⟩ := isBoundary_iff.mp second
  obtain ⟨whole, es, split'', rfl⟩ := isBoundary_iff.mp third
  obtain ⟨gap, rfl, rfl⟩ := exists_gap (split.symm.trans split') before
  obtain ⟨next, rfl, rfl⟩ := exists_gap (split'.symm.trans split'') after
  have both : source.toList = front ++ ((gap ++ next) ++ es) := by rw [split', List.append_assoc, List.append_assoc]
  have later : source.toList = (front ++ gap) ++ (next ++ es) := split'
  rw [slice_of_split split, slice_of_split later, List.append_assoc, slice_of_split both, String.ofList_append]

end Text

/-- A stretch of a text that is passed at once, in bytes. -/
inductive Piece
  /-- Text that is taken as it is. -/
  | gap (start stop : Nat)
  | hit (hit : Hit)
deriving DecidableEq

namespace Piece
open Text

def start : Piece → Nat
  | .gap start _ => start
  | .hit found => found.start

def stop : Piece → Nat
  | .gap _ stop => stop
  | .hit found => found.stop

def text (source : String) (piece : Piece) : String := slice source piece.start piece.stop

/-- Whether the byte at an offset belongs to the piece. -/
def covers (offset : Nat) (piece : Piece) : Bool := piece.start ≤ offset && offset < piece.stop

/-- Pieces that reach from one offset to another without a break, each of them between edges. -/
inductive Tiles (source : String) : (start : Nat) → List Piece → (stop : Nat) → Prop
  | nil {offset} : IsBoundary source offset → Tiles source offset [] offset
  | cons {piece : Piece} {start more stop} : piece.start = start → IsBoundary source start →
      start ≤ piece.stop → Tiles source piece.stop more stop → Tiles source start (piece :: more) stop

namespace Tiles
variable {source : String} {start stop : Nat} {pieces : List Piece}

theorem isBoundary_start (tiles : Tiles source start pieces stop) : IsBoundary source start := by
  cases tiles with
  | nil boundary => exact boundary
  | cons _ boundary => exact boundary

theorem isBoundary_stop (tiles : Tiles source start pieces stop) : IsBoundary source stop := by
  induction tiles with
  | nil boundary => exact boundary
  | cons _ _ _ _ ih => exact ih

theorem le (tiles : Tiles source start pieces stop) : start ≤ stop := by
  induction tiles with
  | nil => exact Nat.le_refl _
  | cons _ _ forward _ ih => exact Nat.le_trans forward ih

/-- Every byte on the way belongs to one of the pieces, and to no other. -/
theorem countP_covers (tiles : Tiles source start pieces stop) (offset : Nat) :
    pieces.countP (covers offset) = if start ≤ offset ∧ offset < stop then 1 else 0 := by
  induction tiles with
  | @nil start => rw [List.countP_nil, if_neg (by omega)]
  | @cons piece start more stop begins _ forward rest ih =>
    have behind := rest.le
    have here : covers offset piece = decide (start ≤ offset ∧ offset < piece.stop) := by
      rw [covers, begins, Bool.decide_and]
    rw [List.countP_cons, ih, here]
    by_cases first : start ≤ offset ∧ offset < piece.stop
    · rw [if_pos (decide_eq_true first), if_neg (by omega), if_pos (by omega)]
    · rw [decide_eq_false first, if_neg Bool.false_ne_true, Nat.add_zero]
      by_cases later : piece.stop ≤ offset ∧ offset < stop
      · rw [if_pos later, if_pos (by omega)]
      · rw [if_neg later, if_neg (by omega)]

/-- The texts of pieces without a break between them are the slice that they reach over. -/
theorem join_text (tiles : Tiles source start pieces stop) :
    String.join (pieces.map (text source)) = slice source start stop := by
  induction tiles with
  | @nil start => rw [List.map_nil, String.join_nil, slice_self]
  | cons begins boundary forward rest ih =>
    rw [List.map_cons, String.join_cons, ih, text, begins,
      slice_append boundary rest.isBoundary_start rest.isBoundary_stop forward rest.le]

theorem join_text_whole (tiles : Tiles source 0 pieces (size source)) :
    String.join (pieces.map (text source)) = source := by
  rw [tiles.join_text, slice_whole]

end Tiles

end Piece

namespace Scanner
open Text Directive

variable {s : Scanner} {source : String} {start : Nat} {hits : List Hit}

/-- The hits from an offset on with the gaps before, between and behind them. -/
def cut (source : String) : (start : Nat) → List Hit → List Piece
  | start, [] => [.gap start (size source)]
  | start, hit :: more => .gap start hit.start :: .hit hit :: cut source hit.stop more

/-- What a text consists of: a text that skips is one gap. -/
def pieces (s : Scanner) (source : String) : List Piece :=
  if s.skips source then [.gap 0 (size source)] else cut source 0 (s.hits source)

/-- A hit takes up some of the text behind the offset, from edge to edge. -/
structure Fits (source : String) (start : Nat) (hit : Hit) : Prop where
  behind : start ≤ hit.start
  nonempty : hit.start < hit.stop
  start : IsBoundary source hit.start
  stop : IsBoundary source hit.stop

/-- A hit takes up some of the text behind the offset that the scan started from. -/
theorem fits_of_next? {hit : Hit} (boundary : IsBoundary source start) (found : s.next? source start = some hit) :
    Fits source start hit := by
  obtain ⟨before, gap, inside, after, split, nonempty, rfl, first, last⟩ := s.next?_split boundary found
  have positive := byteLength_pos nonempty
  refine ⟨?_, ?_, ?_, s.isBoundary_stop boundary found⟩
  · rw [first, byteLength_append]
    omega
  · rw [first, last, byteLength_append, byteLength_append, byteLength_append]
    omega
  · exact isBoundary_iff.mpr ⟨before ++ gap, inside ++ after, by rw [split, List.append_assoc], first.symm⟩

theorem fits_of_layout? {hit : Hit} (found : s.layout? source = some hit) : Fits source 0 hit := by
  rw [layout?_eq_getLast?] at found
  obtain ⟨m, member, named⟩ := List.mem_filterMap.mp (List.mem_of_getLast? found)
  obtain ⟨directive, _, rfl⟩ := Option.map_eq_some_iff.mp named
  obtain ⟨before, inside, after, split, nonempty, _, first, last⟩ :=
    split_of_mem_matchesFrom s.layoutMatch?_takesSome member
  have positive := byteLength_pos nonempty
  rw [Nat.zero_add] at first
  refine ⟨Nat.zero_le _, ?_, isBoundary_iff.mpr ⟨before, inside ++ after, split, first.symm⟩,
    isBoundary_iff.mpr ⟨before ++ inside, after, by rw [split, List.append_assoc], ?_⟩⟩
  · dsimp only
    omega
  · rw [byteLength_append, last, first]

theorem Fits.le_size {hit : Hit} (fits : Fits source start hit) : hit.stop ≤ size source := fits.stop.le_size

/-- The hits of a scan and the gaps between them reach from the offset to the end without a break. -/
theorem Yields.tiles (yields : s.Yields source start hits) (boundary : IsBoundary source start) :
    Piece.Tiles source start (cut source start hits) (size source) := by
  induction yields with
  | none => exact .cons rfl boundary boundary.le_size (.nil (isBoundary_size source))
  | some found _ ih =>
    have fits := fits_of_next? boundary found
    exact .cons rfl boundary fits.behind (.cons rfl fits.start (Nat.le_of_lt fits.nonempty) (ih fits.stop))

/-- All hits lie behind the offset, and each of them ends before the next begins. -/
theorem Yields.ordered (yields : s.Yields source start hits) (boundary : IsBoundary source start) :
    (∀ hit ∈ hits, Fits source start hit) ∧ hits.Pairwise fun a b => a.stop ≤ b.start := by
  induction yields with
  | none => exact ⟨fun _ member => absurd member List.not_mem_nil, .nil⟩
  | @some start hit more found _ ih =>
    have fits := fits_of_next? boundary found
    obtain ⟨each, apart⟩ := ih fits.stop
    refine ⟨List.forall_mem_cons.mpr ⟨fits, fun later member => ?_⟩, .cons (fun later member => ?_) apart⟩
    · obtain ⟨behind, nonempty, first, last⟩ := each later member
      exact ⟨by have := fits.behind; have := fits.nonempty; omega, nonempty, first, last⟩
    · exact (each later member).behind

/-- How the hits of a scan divide a text. -/
structure Divides (s : Scanner) (source : String) : Prop where
  /-- Going on from the end of each hit comes to an end, in one way. -/
  sequence : ∀ hits, s.Yields source 0 hits ↔ hits = s.hits source
  fits : ∀ hit ∈ s.hits source, Fits source 0 hit ∧ hit.stop ≤ size source
  apart : (s.hits source).Pairwise fun a b => a.start < b.start ∧ a.stop ≤ b.start
  whole : String.join ((cut source 0 (s.hits source)).map (Piece.text source)) = source
  layout : ∀ hit, s.layout? source = some hit → Fits source 0 hit ∧ hit.stop ≤ size source

/-- Every text is divided by the hits of its scan: there are finitely many, one behind the other between edges of
characters, and with the gaps they give the text again. -/
theorem divides (s : Scanner) (source : String) : s.Divides source := by
  have yields := s.yields_hits source
  obtain ⟨fits, apart⟩ := yields.ordered (isBoundary_zero source)
  refine ⟨fun others => ?_, fun hit member => ⟨fits hit member, (fits hit member).le_size⟩, ?_,
    (yields.tiles (isBoundary_zero source)).join_text_whole,
    fun hit found => ⟨fits_of_layout? found, (fits_of_layout? found).le_size⟩⟩
  · constructor
    · exact fun again => again.unique yields
    · rintro rfl
      exact yields
  · refine apart.imp_of_mem fun {a b} first _ behind => ⟨?_, behind⟩
    exact Nat.lt_of_lt_of_le (fits a first).nonempty behind

/-- The pieces of a text reach from its beginning to its end without a break, be it scanned or skipped. -/
theorem tiles_pieces (s : Scanner) (source : String) : Piece.Tiles source 0 (s.pieces source) (size source) := by
  have first := isBoundary_zero source
  unfold pieces
  split
  · exact .cons rfl first (Nat.zero_le _) (.nil (isBoundary_size source))
  · exact (s.yields_hits source).tiles first

end Scanner

end Templating
