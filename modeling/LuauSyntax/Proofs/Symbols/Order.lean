import LuauSyntax.Proofs.Frame.Tree
import LuauSyntax.Proofs.Symbols.Tree
import Mathlib.Data.List.TakeWhile

namespace LuauSyntax

open Doc Text

variable {reg : Registry} {m : Char}

namespace Node

theorem filterMap_symbol?_shown (n : Node) : n.shown.filterMap symbol? =
    n.symbol?.toList ++ n.parts.flatMap fun p => p.shown.filterMap symbol? :=
  filterMap_shown symbol? (fun _ => rfl) (fun _ => rfl) n

theorem mem_symbols_of_shown {name : String} {n : Node} (h : name ∈ n.shown.filterMap symbol?) :
    name ∈ n.symbols := by
  rw [symbols, stops_eq, filterMap_symbol?_flatMap_stopsAt]
  exact (n.shown_sublist_preorder.filterMap symbol?).subset h

theorem marks_doc_eq_shown (hm : isOwnChar m = false) {n : Node} (h : n.Clear m)
    (hv : (n.doc reg).violation? = none) :
    (n.doc reg).marks m = (n.shown.filterMap symbol?).flatMap (marked m) := by
  induction n using Node.inductionOn with
  | step n ih =>
      obtain ⟨hn, hparts⟩ := (violation?_doc_eq_none_iff h.not_custom).mp hv
      have hbelow : (n.parts.flatMap fun p => (p.doc reg).marks m) = n.parts.flatMap fun p =>
          (p.shown.filterMap symbol?).flatMap (marked m) :=
        List.flatMap_congr fun p hp =>
          have hchild := n.parts_subset_children hp
          ih p hchild (h.child hchild) (List.findSome?_eq_none_iff.mp hparts p hp)
      rw [marks_doc hm h hn, hbelow, filterMap_symbol?_shown, List.flatMap_append,
        List.flatMap_assoc]

end Node

namespace Style

theorem exists_finish_append (style : Style) (text : String) :
    ∃ tail, text.toList = (style.finish text).toList ++ tail ∧ ∀ c ∈ tail, c = '\n' := by
  unfold finish
  split
  · exact ⟨[], by simp⟩
  · refine ⟨(text.toList.reverse.takeWhile (· = '\n')).reverse, ?_, fun c hc => ?_⟩
    · rw [trimNewlines, String.toList_ofList, ← List.reverse_append,
        List.takeWhile_append_dropWhile, List.reverse_reverse]
    · simpa using List.mem_takeWhile_imp (List.mem_reverse.mp hc)

theorem words_finish (hm : m ≠ '\n') (style : Style) (text : String) :
    words m (style.finish text) = words m text := by
  obtain ⟨tail, htext, htail⟩ := style.exists_finish_append text
  rw [words, words, htext, wordsFrom_append_right fun h => hm (htail m h)]

theorem mem_of_mem_finish {style : Style} {text : String} (h : m ∈ (style.finish text).toList) :
    m ∈ text.toList := by
  obtain ⟨tail, htext, -⟩ := style.exists_finish_append text
  rw [htext]
  exact List.mem_append_left tail h

end Style

namespace Printer

theorem ne_newline_of_not_own (hm : isOwnChar m = false) : m ≠ '\n' := by
  rintro rfl
  exact absurd hm (by decide)

theorem printChunk_eq_finish {p : Printer} {c : Chunk} (hc : (Node.chunk c).Clear m)
    {text : String} (h : p.printChunk c = .ok text) :
    ((Node.chunk c).doc p.registry).violation? = none ∧
      text = p.style.finish (((Node.chunk c).doc p.registry).textFrom p.style.indent 0 0) := by
  have hbalanced : ((Node.chunk c).doc p.registry).Balanced :=
    (Node.chunk c).balanced_doc fun k hk hcustom => by simp [(hc k hk).1] at hcustom
  have hv : ((Node.chunk c).doc p.registry).violation? = none :=
    (p.exists_printChunk_eq_ok_iff c).mp ⟨text, h⟩
  refine ⟨hv, ?_⟩
  change Except.map _ (p.print ((Node.chunk c).doc p.registry)) = _ at h
  rw [print, hv] at h
  have htext := Except.ok.inj h
  rw [← htext, hbalanced.draw_eq]
  simp [Canvas.append, Canvas.ofUnit]

def Writes (m : Char) : Prop :=
  ∃ (p : Printer) (c : Chunk) (text : String),
    (∀ k ∈ (Node.chunk c).preorder, k.isCustom = false ∧ ∀ t ∈ k.strings, m ∉ t.toList) ∧
      m ∉ p.style.indent.toList ∧ p.printChunk c = .ok text ∧ m ∈ text.toList

theorem isOwnChar_of_writes (h : Writes m) : isOwnChar m = true := by
  obtain ⟨p, c, text, hc, hunit, htext, hmem⟩ := h
  by_contra hown
  rw [Bool.not_eq_true] at hown
  have hclear : (Node.chunk c).Clear m := fun k hk => ⟨(hc k hk).1, fun _ => (hc k hk).2⟩
  obtain ⟨hv, rfl⟩ := printChunk_eq_finish hclear htext
  have hmarks : ((Node.chunk c).doc p.registry).marks m = [] := by
    rw [Node.marks_doc_eq_shown hown hclear hv, List.flatMap_eq_nil_iff]
    intro name hname
    have hsymbol := Node.mem_symbols_iff.mp (Node.mem_symbols_of_shown hname)
    exact marked_of_not_mem ((hc _ hsymbol).2 name (by simp [Node.strings, Node.rawTexts]))
  exact not_mem_textFrom hunit (ne_newline_of_not_own hown) hmarks 0 0
    (Style.mem_of_mem_finish hmem)

def sampler : Chunk :=
  ⟨[.typeDecl true "" none (.union [.inter [.string "\t", .basic ""], .optional (.basic "")]),
    .localDecl [] [] [], .whileDo (.unary .length (.symbol "")) [.breakLoop], .goto "", .label "",
    .call ⟨.expr (.literal (.boolean false)), [.brackets (.symbol "")]⟩,
    .assign [] .add [], .assign [] .sub [], .assign [] .mul [], .assign [] .div [],
    .assign [] .mod [], .assign [] .pow [],
    .returns [.literal (.number (.ofNat 1234567890)), .literal (.number ⟨0x7FF0000000000000⟩),
      .interpolated [.expr (.binary (.symbol "") .notEqual (.symbol ""))],
      .binary (.symbol "") .less (.symbol ""), .binary (.symbol "") .greater (.symbol "")]]⟩

def samplerLines : List String :=
  ["export type  = \"\\t\" &  | ?\n", "local \n", "while # do\n", "break\n", "end\n", "goto \n",
    "::::\n", ";(false)[]\n", " += \n", " -= \n", " *= \n", " /= \n", " %= \n", " ^= \n",
    "return 1234567890, math.huge, `$\x7b ~= \x7d`,  < ,  > \n"]

theorem printChunk_sampler :
    printChunk { style := .ofIndent "" } sampler = .ok (String.join samplerLines) := by
  decide +kernel

theorem mem_samplerLines (h : isOwnChar m = true) : m ∈ (String.join samplerLines).toList := by
  have hle : m.toNat ≤ 126 := by
    simp only [isOwnChar, Bool.or_eq_true, Bool.and_eq_true, decide_eq_true_eq] at h
    rcases h with rfl | ⟨⟨⟨_, h⟩, _⟩, _⟩
    · decide
    · exact h
  have hall : ∀ k ≤ 126, isOwnChar (Char.ofNat k) = true →
      Char.ofNat k ∈ samplerLines.flatMap String.toList := by
    decide +kernel
  rw [String.toList_join]
  simpa using hall m.toNat hle (by simpa using h)

theorem writes_iff : Writes m ↔ isOwnChar m = true := by
  refine ⟨isOwnChar_of_writes, fun h => ?_⟩
  have hstrings : ∀ k ∈ (Node.chunk sampler).preorder,
      k.isCustom = false ∧ ∀ t ∈ k.strings, t = "" ∨ t = "\t" := by
    decide +kernel
  have htab : m ∉ "\t".toList := by
    intro hm
    obtain rfl : m = '\t' := by simpa using hm
    exact absurd h (by decide)
  refine ⟨{ style := .ofIndent "" }, sampler, String.join samplerLines, fun k hk => ?_,
    by simp [Style.ofIndent], printChunk_sampler, mem_samplerLines h⟩
  refine ⟨(hstrings k hk).1, fun t ht => ?_⟩
  rcases (hstrings k hk).2 t ht with rfl | rfl
  · simp
  · exact htab

theorem words_printChunk (p : Printer) {c : Chunk} (hm : ¬ Writes m)
    (hunit : m ∉ p.style.indent.toList) (hc : (Node.chunk c).Clear m)
    (hsymbols : ∀ name ∈ (Node.chunk c).symbols, ∃ w, m ∉ w ∧ name = delimited m w)
    {text : String} (h : p.printChunk c = .ok text) :
    words m text = ((Node.chunk c).shown.flatMap Node.stopsAt).filterMap Stop.symbol? ∧
      (Node.chunk c).stops = (Node.chunk c).preorder.flatMap Node.stopsAt ∧
      (Node.chunk c).shown.Sublist (Node.chunk c).preorder := by
  have hown : isOwnChar m = false := by simpa [writes_iff] using hm
  have hline := ne_newline_of_not_own hown
  obtain ⟨hv, rfl⟩ := printChunk_eq_finish hc h
  have hnames : ∀ name ∈ (Node.chunk c).shown.filterMap Node.symbol?,
      ∃ w, m ∉ w ∧ name = delimited m w :=
    fun name hname => hsymbols name (Node.mem_symbols_of_shown hname)
  have hmarks : ((Node.chunk c).doc p.registry).marks m =
      (Node.chunk c).shown.filterMap Node.symbol? := by
    rw [Node.marks_doc_eq_shown hown hc hv]
    refine flatMap_marked fun name hname => ?_
    obtain ⟨w, -, rfl⟩ := hnames name hname
    simp [delimited]
  refine ⟨?_, (Node.chunk c).stops_eq, (Node.chunk c).shown_sublist_preorder⟩
  have hwords := wordsFrom_textFrom_append hunit hline (hmarks ▸ hnames) 0 0 []
  rw [Style.words_finish hline, Node.filterMap_symbol?_flatMap_stopsAt, ← hmarks]
  simpa [words, wordsFrom] using hwords

theorem words_printChunk_until :
    ∃ text, printChunk {}
      ⟨[.repeatUntil
        [.localDecl ["f"] []
          [.function ⟨some [⟨.single "T", some (.typeof (.symbol "@a@")), none⟩], [.name "x"],
            [some (.typeof (.symbol "@b@"))], none, [.returns [.symbol "@c@"]]⟩]]
        (.unary .not (.unary .not (.symbol "@d@")))]⟩ = .ok text ∧
      words '@' text = ["@b@", "@c@", "@d@"] := by
  refine ⟨"repeat\n  local function f<T>(x: typeof(@b@))\n    return @c@\n  end\nuntil @d@\n",
    ?print, (words_printChunk {} ?mark ?unit ?clear ?symbols ?print).1.trans ?shown⟩
  case print => decide +kernel
  case mark => exact fun h => absurd (isOwnChar_of_writes h) (by decide)
  case unit => decide
  case clear => decide +kernel
  case symbols =>
    intro name hname
    have hname : name ∈ [['a'], ['b'], ['c'], ['d']].map (delimited '@') := by
      revert name
      decide +kernel
    obtain ⟨w, hw, rfl⟩ := List.mem_map.mp hname
    exact ⟨w, (by decide : ∀ w ∈ [['a'], ['b'], ['c'], ['d']], '@' ∉ w) w hw, rfl⟩
  case shown => decide +kernel

end Printer

end LuauSyntax
