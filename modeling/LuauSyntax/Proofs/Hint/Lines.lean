import LuauSyntax.Proofs.Doc.Shedding
import LuauSyntax.Proofs.Frame.Visit
import LuauSyntax.Proofs.Hint.Comments
import LuauSyntax.Proofs.Hint.Document

namespace LuauSyntax

open Doc

theorem Node.settles_doc (reg : Registry) {c : Chunk}
    (hcustom : ∀ n ∈ (Node.chunk c).preorder, n.isCustom = false) :
    ((Node.chunk c).doc reg).Settles := by
  have hformed : (Node.chunk c).Formed (fun _ => False) reg :=
    (Node.chunk c).formed fun n hn hn' => by simp [hcustom n hn] at hn'
  exact hformed.fits fun _ hd => hd.elim

theorem Printer.printChunk_eq_ok {p : Printer} {c : Chunk}
    (hc : ((Node.chunk c).doc p.registry).violation? = none) :
    p.printChunk c = .ok (p.style.finish
      (((Node.chunk c).doc p.registry).draw (.ofUnit p.style.indent)).output) := by
  change (p.print ((Node.chunk c).doc p.registry)).map p.style.finish = _
  rw [Printer.print, hc]
  rfl

theorem Printer.printChunk_strip (p : Printer) (hunit : '\n' ∉ p.style.indent.toList) (c : Chunk)
    (hcustom : ∀ n ∈ (Node.chunk c).preorder, n.isCustom = false)
    (hpadded : ∀ n ∈ (Node.chunk c).preorder, n.isPadded = false) :
    (∀ v, p.printChunk (Id.run (c.transform .strip)) = .error v ↔ p.printChunk c = .error v) ∧
    ∀ text, p.printChunk c = .ok text → ∃ ls ls', text = p.style.finish (Text.unlines ls) ∧
      (∀ l ∈ ls, '\n' ∉ l.toList) ∧
      p.printChunk (Id.run (c.transform .strip)) = .ok (p.style.finish (Text.unlines ls')) ∧
      Text.Sheds p.style.indent ls ls' ((Node.chunk c).shown.flatMap Node.commentLines) ∧
      ls.length = ls'.length + ((Node.chunk c).shown.flatMap Node.commentLines).length := by
  have hdoc : (Node.chunk (Id.run (c.transform .strip))).doc p.registry =
      ((Node.chunk c).doc p.registry).uncommented :=
    Node.uncomments hcustom hpadded rfl
  constructor
  · intro v
    rw [p.printChunk_eq_error_iff, p.printChunk_eq_error_iff, hdoc, violation?_uncommented]
  · intro text htext
    have hok : ((Node.chunk c).doc p.registry).violation? = none :=
      (p.exists_printChunk_eq_ok_iff c).mp ⟨text, htext⟩
    have hsheds := sheds_draw (Canvas.sheds_ofUnit hunit) (Node.settles_doc p.registry hcustom)
    rw [← hdoc, List.nil_append, Node.comments_doc_eq_shown hcustom hok] at hsheds
    obtain ⟨ls, ls', rest, hls, hls', hlines, hclean, -, hrest⟩ := hsheds.exists_lines
    rw [hrest rfl, String.append_empty] at hls hls'
    rw [printChunk_eq_ok hok, hls] at htext
    refine ⟨ls, ls', (Except.ok.inj htext).symm, hclean, ?_, hlines, hlines.length_eq⟩
    rw [printChunk_eq_ok (by rw [hdoc, violation?_uncommented, hok]), hls']

theorem Printer.printChunk_strip_call :
    ∃ ls ls', "f(function()\n  -- a\n  --\n  -- b\n  return\nend)\n" = Text.unlines ls ∧
      (∀ l ∈ ls, '\n' ∉ l.toList) ∧
      Printer.printChunk {} (Id.run (Chunk.transform .strip ⟨[.comment "",
        .call ⟨.name "f", [.call [.function ⟨none, [], [], none,
          [.comment "a\r\n\nb\n", .returns []]⟩]]⟩]⟩)) = .ok (Text.unlines ls') ∧
      Text.Sheds "  " ls ls' ["a", "", "b"] ∧ ls.length = ls'.length + 3 :=
  (Printer.printChunk_strip {} (by decide) ⟨[.comment "",
    .call ⟨.name "f", [.call [.function ⟨none, [], [], none,
      [.comment "a\r\n\nb\n", .returns []]⟩]]⟩]⟩ (by decide) (by decide)).2 _ (by decide +kernel)

theorem Printer.printChunk_hidden_comment :
    let c : Chunk := ⟨[.localDecl ["f"] [] [.function ⟨some [⟨.single "T",
      some (.typeof (.function ⟨none, [], [], none, [.comment "hidden"]⟩)), none⟩],
        [], [], none, []⟩]]⟩
    (Node.chunk c).Plain ∧ (∀ n ∈ (Node.chunk c).preorder, n.isPadded = false) ∧
      (Node.chunk c).preorder.flatMap Node.commentLines = ["hidden"] ∧
      Printer.printChunk {} c = .ok "local function f<T>()\nend\n" ∧
      Printer.printChunk {} (Id.run (c.transform .strip)) = .ok "local function f<T>()\nend\n" := by
  decide +kernel

end LuauSyntax
