import DocTemplate.Proofs.Template.Concatenation
import DocTemplate.Proofs.Template.Printing

/-!
# Conditionals on lines of their own

A conditional block whose tags stand on lines of their own is to be seen in the output by the lines
of one branch only. Two rules that know nothing of each other work towards that. The parser takes
the line feeds after the two outer tags, and the renderer trims what the chosen branch makes.

**For the first branch they fit** (`Template.standalone_lines`): nothing is trimmed, and the block
makes the text of the branch. For the second branch they do not. The line feed after the middle tag
belongs to the branch, so the text begins with a terminator, and trimming takes the one at its end as
well. The line feed after the closing tag, which would make up for it, has been taken by the parser;
so what follows the block continues the last line of the branch (`Template.standalone_line_joined`).
-/

namespace DocTemplate

open Text (BeginsWithTerminator IsTerminator)
open Grammar (Derives)

/-! ### Trimming -/

namespace Text

/-- A text without the terminator at its end, if it has one. -/
def dropLastTerminatorString (text : String) : String :=
  String.ofList (dropLastTerminator text.toList)

/-- A text without a terminator at its front is not trimmed. -/
theorem trimString_of_not_beginsWithTerminator {text : String}
    (h : ¬BeginsWithTerminator text.toList) : trimString text = text := by
  rw [trimString, trim_of_not_beginsWithTerminator h, String.ofList_toList]

/-- **A line feed in front of a text is trimmed** together with the terminator at its end. -/
theorem trimString_lineFeed_append (text : String) :
    trimString ("\n" ++ text) = dropLastTerminatorString text := by
  rw [trimString, String.toList_append]
  exact congrArg String.ofList (trim_append_of_isTerminator (Or.inl rfl) text.toList)

end Text

/-! ### The block and its nodes -/

namespace Template

/-- The source of a conditional block with a line feed after each of its tags. -/
def standalone (r : Reference) (a b : String) : String :=
  "$if(" ++ r.display ++ ")$\n" ++ a ++ "$else$\n" ++ b ++ "$endif$\n"

theorem toList_standalone (r : Reference) (a b : String) :
    (standalone r a b).toList =
      BlockKind.conditional.openTag r ++
        (['\n'] ++ (a.toList ++ BlockKind.conditional.middle ++ (['\n'] ++ b.toList) ++
          BlockKind.conditional.closing) ++ ['\n']) := by
  simp [standalone, BlockKind.openTag, BlockKind.opening, BlockKind.middle, BlockKind.closing,
    Reference.chars]

/-- The node of such a block. The line feed after the middle tag begins the second branch. -/
def standaloneNode (r : Reference) (first second : List Node) : Node :=
  .block .conditional r first (some (Node.cons (.literal "\n") second))

variable {r : Reference} {a b : String} {first second nodes : List Node} {source : List Char}

theorem derives_standalone_append (hr : r.IsWritable) (ha : Derives a.toList first)
    (hb : Derives b.toList second) (h : Derives source nodes) :
    Derives ((standalone r a b).toList ++ source) (standaloneNode r first second :: nodes) := by
  rw [toList_standalone]
  exact h.block_append hr (.two ha (hb.run_append (List.cons_ne_nil _ _) (by decide)))

theorem depth_standaloneNode (r : Reference) (first second : List Node) :
    (standaloneNode r first second).depth =
      1 + max (Node.depthAll first) (Node.depthAll second) := by
  rw [standaloneNode, Node.depth_block, Node.depthSecond, Node.depthAll_cons, Node.depth,
    Nat.zero_max]

/-! ### The text of the block -/

/-- **The text of the block** is what the first branch makes, trimmed, or what the second one makes,
without the terminator at its end. -/
theorem scopedText_standaloneNode (r : Reference) (first second : List Node) (c : Context) :
    (standaloneNode r first second).scopedText c =
      if (c.resolve r).isTruthy then Text.trimString (Node.scopedTextAll first c)
      else Text.dropLastTerminatorString (Node.scopedTextAll second c) := by
  rw [standaloneNode, Node.scopedText_conditional, Node.chosen]
  split
  next => rfl
  next =>
    rw [Option.getD_some, Node.scopedTextAll_joined, Node.scopedText_literal,
      Text.trimString_lineFeed_append]

/-- A block on lines of its own compiles in front of every source, under a limit that is greater by
one than that of its branches, and its text comes before that of the source. -/
theorem compile_standalone_append {limit : Nat} {t u v : Template} {after : String}
    (hr : r.IsWritable) (ha : compile a limit = .ok t) (hb : compile b limit = .ok u)
    (hafter : compile after (limit + 1) = .ok v) :
    compile (standalone r a b ++ after) (limit + 1) =
      .ok ⟨standaloneNode r t.nodes u.nodes :: v.nodes⟩ := by
  obtain ⟨hfirst, hfirst'⟩ := compile_eq_ok_iff.mp ha
  obtain ⟨hsecond, hsecond'⟩ := compile_eq_ok_iff.mp hb
  obtain ⟨hnodes, hnodes'⟩ := compile_eq_ok_iff.mp hafter
  refine compile_eq_ok_iff.mpr ⟨?_, ?_⟩
  · rw [String.toList_append]
    exact derives_standalone_append hr hfirst hsecond hnodes
  · rw [depth] at hfirst' hsecond' hnodes' ⊢
    rw [Node.depthAll, depth_standaloneNode]
    omega

/-- **A conditional block on lines of its own makes the text of its first branch**, if the reference
counts as true and this text does not begin with a line terminator. If the reference does not count
as true, it makes the text of its second branch **without the line terminator at its end**. What
follows the block comes right behind either text. -/
theorem standalone_lines {r : Reference} {a b : String} {limit : Nat} {t u : Template}
    (hr : r.IsWritable) (ha : compile a limit = .ok t) (hb : compile b limit = .ok u) (c : Context)
    (hfirst : ¬BeginsWithTerminator (t.render c).1.toList) :
    ∃ w, compile (standalone r a b) (limit + 1) = .ok w ∧
      ((c.resolve r).isTruthy = true → (w.render c).1 = (t.render c).1) ∧
      ((c.resolve r).isTruthy = false →
        (w.render c).1 = Text.dropLastTerminatorString (u.render c).1) ∧
      ∀ after v, compile after (limit + 1) = .ok v →
        ∃ x, compile (standalone r a b ++ after) (limit + 1) = .ok x ∧
          (x.render c).1 = (w.render c).1 ++ (v.render c).1 := by
  have hempty : compile "" (limit + 1) = .ok ⟨[]⟩ :=
    compile_eq_ok_iff.mpr ⟨.nil, Nat.zero_le _⟩
  have hblock := compile_standalone_append hr ha hb hempty
  rw [String.append_empty] at hblock
  refine ⟨_, hblock, fun htruthy => ?_, fun hfalsy => ?_, fun after v hafter => ?_⟩
  · rw [render_eq, render_eq, scopedText, Node.scopedTextAll_cons, Node.scopedTextAll_nil,
      String.append_empty, scopedText_standaloneNode, if_pos htruthy]
    rw [render_eq] at hfirst
    exact Text.trimString_of_not_beginsWithTerminator hfirst
  · rw [render_eq, render_eq, scopedText, Node.scopedTextAll_cons, Node.scopedTextAll_nil,
      String.append_empty, scopedText_standaloneNode, hfalsy]
    rfl
  · refine ⟨_, compile_standalone_append hr ha hb hafter, ?_⟩
    simp only [render_eq, scopedText, Node.scopedTextAll_cons, Node.scopedTextAll_nil,
      String.append_empty]

/-- A block on a reference of two keys, against a context in which it counts as true and against one
in which it does not. The second branch begins and ends with a pair. -/
theorem standalone_lines_pairs :
    (⟨"x", ["y"]⟩ : Reference).IsWritable ∧
      compile "A$x.y$\n" 0 =
        .ok ⟨[.literal "A", .interpolation ⟨"x", ["y"]⟩, .literal "\n"]⟩ ∧
      compile "\r\n$$\r\n" 0 = .ok ⟨[.literal "\r\n$\r\n"]⟩ ∧
      (∃ w, compile (standalone ⟨"x", ["y"]⟩ "A$x.y$\n" "\r\n$$\r\n") 1 = .ok w ∧
        (w.render ⟨⟨[("x", .mapping ⟨[("y", .scalar "1")]⟩)]⟩⟩).1 = "A1\n") ∧
      ∃ w, compile (standalone ⟨"x", ["y"]⟩ "A$x.y$\n" "\r\n$$\r\n") 1 = .ok w ∧
        (w.render .empty).1 = "\r\n$" := by
  have hr : (⟨"x", ["y"]⟩ : Reference).IsWritable := by decide
  have ha : compile "A$x.y$\n" 0 =
      .ok ⟨[.literal "A", .interpolation ⟨"x", ["y"]⟩, .literal "\n"]⟩ := by
    with_unfolding_all rfl
  have hb : compile "\r\n$$\r\n" 0 = .ok ⟨[.literal "\r\n$\r\n"]⟩ := rfl
  refine ⟨hr, ha, hb, ?_, ?_⟩
  · obtain ⟨w, hw, htruthy, -, -⟩ := standalone_lines hr ha hb
      ⟨⟨[("x", .mapping ⟨[("y", .scalar "1")]⟩)]⟩⟩ (by decide +kernel)
    exact ⟨w, hw, (htruthy rfl).trans (by rfl)⟩
  · obtain ⟨w, hw, -, hfalsy, -⟩ := standalone_lines hr ha hb .empty (by decide +kernel)
    exact ⟨w, hw, (hfalsy rfl).trans (by rfl)⟩

/-- The line feed at the end of the second branch is lost: the text behind the block continues the
line. -/
theorem standalone_line_joined :
    compile "A\n" 0 = .ok ⟨[.literal "A\n"]⟩ ∧ compile "B\n" 0 = .ok ⟨[.literal "B\n"]⟩ ∧
      (render ⟨[.literal "A\n"]⟩ .empty).1 = "A\n" ∧
      (render ⟨[.literal "B\n"]⟩ .empty).1 = "B\n" ∧
      ¬BeginsWithTerminator "A\n".toList ∧ ¬BeginsWithTerminator "B\n".toList ∧
      (Context.empty.resolve (.key "x")).isTruthy = false ∧
      compileAndRender (standalone (.key "x") "A\n" "B\n") 1 .empty = .ok ("B", .empty) ∧
      compileAndRender (standalone (.key "x") "A\n" "B\n") 1 .empty ≠ .ok ("B\n", .empty) ∧
      compileAndRender (standalone (.key "x") "A\n" "B\n" ++ "C") 1 .empty = .ok ("BC", .empty) := by
  have hr : (Reference.key "x").IsWritable := by decide
  have ha : compile "A\n" 0 = .ok ⟨[.literal "A\n"]⟩ := rfl
  have hb : compile "B\n" 0 = .ok ⟨[.literal "B\n"]⟩ := rfl
  have hempty : compile "" 1 = .ok ⟨[]⟩ := rfl
  have hafter : compile "C" 1 = .ok ⟨[.literal "C"]⟩ := rfl
  have hblock := compile_standalone_append hr ha hb hempty
  have hblock' := compile_standalone_append hr ha hb hafter
  rw [String.append_empty] at hblock
  refine ⟨ha, hb, rfl, rfl, by decide, by decide, rfl, ?_, ?_, ?_⟩
  · rw [compileAndRender, hblock]
    rfl
  · rw [compileAndRender, hblock]
    exact fun h => absurd (congrArg Prod.fst (Except.ok.inj h)) (by decide +kernel)
  · rw [compileAndRender, hblock']
    rfl

end Template

end DocTemplate
