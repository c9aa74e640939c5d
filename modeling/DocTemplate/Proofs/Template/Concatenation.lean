import DocTemplate.Proofs.Template.Recognition
import DocTemplate.Proofs.Template.Scope

/-!
# Templates one after the other

Two sources put together are a source, and what it compiles to is what they compile to, put together
(`Template.compile_append`). The nodes stand one after the other, a literal at the end of the first
template and one at the beginning of the second being one literal (`Node.join`), and the text of the
whole is the text of the first followed by that of the second.

One thing can go wrong where the sources meet. A block at the end of the first source leaves the line
terminator after its opening tag in its first branch, because none follows its closing tag. If the
second source begins with a line terminator, there is one now, and the block takes both. So either
the second source does not begin with a terminator, or the first does not end with a closing tag
(`Grammar.EndsWithClosing`). A carriage return may stand behind the tag and wait for its line feed.

Nothing else reaches over the joint, least of all a dollar: what the first source derives it derives
whatever follows, and a text derives one list of nodes only.
-/

namespace DocTemplate

open Text (Stops IsTerminator BeginsWithTerminator)
open Grammar (Derives DerivesElement DerivesContents DerivesParts)

/-! ### Joining nodes -/

namespace Node

/-- Nodes and the nodes after them, a literal joining a literal that follows it where they meet. -/
def join : List Node → List Node → List Node
  | [], more => more
  | [last], more => cons last more
  | node :: next :: rest, more => node :: join (next :: rest) more

/-- What is put in front of nodes is put in front of what follows them as well. -/
theorem join_cons (node : Node) (nodes more : List Node) :
    join (cons node nodes) more = cons node (join nodes more) := by
  cases nodes with
  | nil => cases node <;> rfl
  | cons next rest =>
    cases node with
    | literal text =>
      cases next with
      | literal text' =>
        cases rest with
        | nil => exact (cons_literal_cons_literal text text' more).symm
        | cons _ _ => rfl
      | _ => cases rest <;> rfl
    | _ => rfl

theorem depthAll_join (nodes more : List Node) :
    depthAll (join nodes more) = max (depthAll nodes) (depthAll more) := by
  fun_induction join nodes more with
  | case1 more => rw [depthAll, Nat.zero_max]
  | case2 last more => rw [depthAll_cons, depthAll, depthAll, Nat.max_zero]
  | case3 node next rest more ih => simp only [depthAll, ih, Nat.max_assoc]

theorem scopedTextAll_joined (node : Node) (nodes : List Node) (c : Context) :
    scopedTextAll (cons node nodes) c = node.scopedText c ++ scopedTextAll nodes c := by
  cases node with
  | literal text =>
    cases nodes with
    | nil => rfl
    | cons next rest =>
      cases next with
      | literal text' =>
        simp only [cons, scopedTextAll_cons, scopedText_literal, String.append_assoc]
      | _ => rfl
  | _ => rfl

/-- **Joined nodes make their texts one after the other**, against one context. -/
theorem scopedTextAll_join (nodes more : List Node) (c : Context) :
    scopedTextAll (join nodes more) c = scopedTextAll nodes c ++ scopedTextAll more c := by
  fun_induction join nodes more with
  | case1 more => rw [scopedTextAll_nil, String.empty_append]
  | case2 last more =>
    rw [scopedTextAll_joined, scopedTextAll_cons, scopedTextAll_nil, String.append_empty]
  | case3 node next rest more ih => simp only [scopedTextAll_cons, ih, String.append_assoc]

end Node

namespace Grammar

variable {a b text rest : List Char} {kind : BlockKind} {more first : List Node}
  {second : Option (List Node)}

/-! ### Where two texts meet -/

/-- A text ends with the closing tag of a block, possibly with a carriage return behind it. -/
def EndsWithClosing (text : List Char) : Prop :=
  ∃ kind : BlockKind, kind.closing <:+ text ∨ kind.closing ++ ['\r'] <:+ text

/-- Two texts can be put together: no terminator at the front of the second one meets a closing tag
at the end of the first. -/
def Joinable (a b : List Char) : Prop :=
  ¬(EndsWithClosing a ∧ BeginsWithTerminator b)

theorem EndsWithClosing.of_suffix (h : EndsWithClosing a) (hsuffix : a <:+ b) :
    EndsWithClosing b := by
  obtain ⟨kind, hclosing | hclosing⟩ := h
  · exact ⟨kind, Or.inl (hclosing.trans hsuffix)⟩
  · exact ⟨kind, Or.inr (hclosing.trans hsuffix)⟩

theorem Joinable.of_append (h : Joinable (text ++ rest) b) : Joinable rest b :=
  fun ⟨hclosing, hterm⟩ => h ⟨hclosing.of_suffix (List.suffix_append text rest), hterm⟩

theorem DerivesParts.closing_suffix (h : DerivesParts kind text first second) :
    kind.closing <:+ text := by
  cases h with
  | one _ => exact List.suffix_append _ kind.closing
  | two _ _ => exact List.suffix_append _ kind.closing

/-- **The contents of a block are the same in front of a longer text**, if no terminator comes to
stand behind the closing tag. -/
theorem DerivesContents.append_of_joinable (h : DerivesContents kind text first second rest)
    (hjoin : Joinable (text ++ rest) b) : DerivesContents kind text first second (rest ++ b) := by
  cases h with
  | paired hopened hclosed hparts => exact .paired hopened hclosed hparts
  | unpaired hnot hparts =>
    refine .unpaired (fun ⟨hopened, hclosed⟩ => ?_) hparts
    rcases hclosed.append_cases with hrest | ⟨hb, rfl | rfl⟩
    · exact hnot ⟨hopened, hrest⟩
    · rw [List.append_nil] at hjoin
      exact hjoin ⟨⟨kind, Or.inl hparts.closing_suffix⟩, hb⟩
    · -- the return behind the tag and the feed behind it are one terminator
      obtain ⟨front, rfl⟩ := hparts.closing_suffix
      rw [List.append_assoc] at hjoin
      exact hjoin ⟨⟨kind, Or.inr (List.suffix_append front _)⟩, hb⟩

/-- **What a text derives it derives in front of another one.** -/
theorem Derives.append_of_joinable {a : List Char} {nodes : List Node} (ha : Derives a nodes)
    (hb : Derives b more) (hjoin : Joinable a b) : Derives (a ++ b) (Node.join nodes more) := by
  match ha with
  | .nil => exact hb
  | .cons helement hrest =>
    have hbehind := hrest.append_of_joinable hb hjoin.of_append
    rw [List.append_assoc, Node.join_cons]
    cases helement with
    | leaf hleaf =>
      cases hleaf with
      | run hne hrun _ => exact hbehind.run_append hne hrun
      | dollar => exact .cons (.leaf .dollar) hbehind
      | interpolation hr hreserved => exact .cons (.leaf (.interpolation hr hreserved)) hbehind
    | @block kind r body _ _ _ hr hcontents =>
      rw [List.append_assoc] at hjoin
      exact .cons (.block hr (hcontents.append_of_joinable hjoin.of_append)) hbehind

end Grammar

namespace Template

/-- **Compiling is a homomorphism for concatenation.** Two sources that compile, of which the second
does not begin with a line terminator or the first does not end with a closing tag, compile together
to their nodes joined; and what these make of a context is what the templates make of it, one after
the other. -/
theorem compile_append {a b : String} {limit : Nat} {t u : Template}
    (ha : compile a limit = .ok t) (hb : compile b limit = .ok u)
    (hjoint : ¬BeginsWithTerminator b.toList ∨ ¬Grammar.EndsWithClosing a.toList) :
    compile (a ++ b) limit = .ok ⟨Node.join t.nodes u.nodes⟩ ∧
      ∀ c : Context, (Template.render ⟨Node.join t.nodes u.nodes⟩ c).1 =
        (t.render c).1 ++ (u.render c).1 := by
  obtain ⟨hderives, hdepth⟩ := compile_eq_ok_iff.mp ha
  obtain ⟨hderives', hdepth'⟩ := compile_eq_ok_iff.mp hb
  constructor
  · refine compile_eq_ok_iff.mpr ⟨?_, ?_⟩
    · rw [String.toList_append]
      refine hderives.append_of_joinable hderives' fun ⟨hclosing, hterm⟩ => ?_
      exact hjoint.elim (fun h => h hterm) (fun h => h hclosing)
    · rw [depth, Node.depthAll_join]
      exact Nat.max_le.mpr ⟨hdepth, hdepth'⟩
  · intro c
    simp only [render_eq, scopedText, Node.scopedTextAll_join]

/-- A block whose closing tag no terminator follows, and a source that begins with dollars. Against a
sequence of two items, which is in a mapping, both give their texts one after the other. -/
theorem compile_append_dollars :
    compile "$for(x.y)$\n-$endfor$\r$$" 1 =
        .ok ⟨[.block .loop ⟨"x", ["y"]⟩ [.literal "\n-"] none, .literal "\r$"]⟩ ∧
      compile "$$$x$\n" 1 = .ok ⟨[.literal "$", .interpolation (.key "x"), .literal "\n"]⟩ ∧
      ¬BeginsWithTerminator "$$$x$\n".toList ∧
      compile ("$for(x.y)$\n-$endfor$\r$$" ++ "$$$x$\n") 1 =
        .ok ⟨[.block .loop ⟨"x", ["y"]⟩ [.literal "\n-"] none, .literal "\r$$",
          .interpolation (.key "x"), .literal "\n"]⟩ ∧
      (render ⟨[.block .loop ⟨"x", ["y"]⟩ [.literal "\n-"] none, .literal "\r$$",
          .interpolation (.key "x"), .literal "\n"]⟩
        ⟨⟨[("x", .mapping ⟨[("y", .sequence [.scalar "1", .scalar "2"])]⟩)]⟩⟩).1 =
          "-\n-\r$" ++ "$true\n" := by
  have ha : compile "$for(x.y)$\n-$endfor$\r$$" 1 =
      .ok ⟨[.block .loop ⟨"x", ["y"]⟩ [.literal "\n-"] none, .literal "\r$"]⟩ := by
    with_unfolding_all rfl
  have hb : compile "$$$x$\n" 1 =
      .ok ⟨[.literal "$", .interpolation (.key "x"), .literal "\n"]⟩ := by
    with_unfolding_all rfl
  have hterm : ¬BeginsWithTerminator "$$$x$\n".toList := by
    rintro ⟨terminator, rfl | rfl, hprefix⟩
    · exact absurd hprefix (by decide)
    · exact absurd hprefix (by decide)
  obtain ⟨hjoined, hrender⟩ := compile_append ha hb (Or.inl hterm)
  refine ⟨ha, hb, hterm, hjoined, (hrender _).trans ?_⟩
  decide +kernel

end Template

end DocTemplate
