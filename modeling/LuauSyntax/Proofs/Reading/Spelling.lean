import LuauSyntax.Printer
import LuauSyntax.Proofs.Doc.Tree
import LuauSyntax.Proofs.Reading.Ungrouped

namespace LuauSyntax

def Piece.text? : Piece → Option String
  | .edit (.append t) => some t
  | _ => none

namespace Doc

def chars (d : Doc) : List Char :=
  d.flatMap fun p => (p.text?.getD "").toList

structure Spells (d : Doc) (joins : Char → Bool) (ts : List Token) : Prop where
  isText : ∀ p ∈ d, p.text?.isSome
  scans : ∀ cs : List Char, (∀ c ∈ cs.head?, joins c = false) →
    Token.scan (d.chars ++ cs) = ts ++ Token.scan cs

theorem chars_append (d e : Doc) : chars (d ++ e) = d.chars ++ e.chars :=
  List.flatMap_append

theorem chars_text (t : String) : (text t).chars = t.toList := by
  simp [chars, text, Piece.text?]

theorem draw_of_isText {d : Doc} (h : ∀ p ∈ d, p.text?.isSome) (c : Canvas) :
    d.draw c = c.append (String.ofList d.chars) := by
  induction d generalizing c with
  | nil => simp [draw, chars, Canvas.append]
  | cons p d ih =>
      have hp : p.text?.isSome = true := h p (by simp)
      match p with
      | .edit (.append t) =>
          have hrest := ih (fun q hq => h q (by simp [hq])) (c.append t)
          change draw d (c.append t) = _
          rw [hrest]
          simp [chars, Piece.text?, Canvas.append, String.append_assoc]

theorem violation?_of_isText {d : Doc} (h : ∀ p ∈ d, p.text?.isSome) : d.violation? = none := by
  induction d with
  | nil => rfl
  | cons p d ih =>
      have hp : p.text?.isSome = true := h p (by simp)
      match p with
      | .edit (.append t) => exact ih fun q hq => h q (by simp [hq])

end Doc

theorem Printer.print_of_isText (p : Printer) {d : Doc} (h : ∀ q ∈ d, q.text?.isSome) :
    p.print d = .ok (String.ofList d.chars) := by
  rw [Printer.print, Doc.violation?_of_isText h, Doc.draw_of_isText h]
  simp [Canvas.append, Canvas.ofUnit]

namespace Doc.Spells

variable {d e : Doc} {joins follows : Char → Bool} {ts us : List Token}

theorem nil : Spells [] joins [] :=
  ⟨by simp, by simp [chars]⟩

theorem text {t : String} (h : ∀ cs : List Char, (∀ c ∈ cs.head?, joins c = false) →
    Token.scan (t.toList ++ cs) = ts ++ Token.scan cs) : Spells (text t) joins ts :=
  ⟨by simp [Doc.text, Piece.text?], by simpa [chars_text] using h⟩

theorem mono (h : Spells d joins ts) (hjoins : ∀ c, follows c = false → joins c = false) :
    Spells d follows ts :=
  ⟨h.isText, fun cs hcs => h.scans cs fun c hc => hjoins c (hcs c hc)⟩

theorem append_of_forall (hd : Spells d joins ts) (he : Spells e follows us)
    (hjoin : ∀ cs : List Char, (∀ c ∈ cs.head?, follows c = false) →
      ∀ c ∈ (e.chars ++ cs).head?, joins c = false) : Spells (d ++ e) follows (ts ++ us) := by
  refine ⟨fun p hp => ?_, fun cs hcs => ?_⟩
  · rcases List.mem_append.mp hp with hp | hp
    · exact hd.isText p hp
    · exact he.isText p hp
  · rw [chars_append, List.append_assoc, hd.scans _ (hjoin cs hcs), he.scans cs hcs,
      List.append_assoc]

theorem append (hd : Spells d joins ts) (he : Spells e follows us) {c : Char}
    (hc : e.chars.head? = some c) (hjoin : joins c = false) :
    Spells (d ++ e) follows (ts ++ us) := by
  refine hd.append_of_forall he fun cs _ c' hc' => ?_
  have heq : c = c' := by simpa [List.head?_append, hc] using hc'
  rw [← heq]
  exact hjoin

theorem append_of_free (hd : Spells d (fun _ => false) ts) (he : Spells e follows us) :
    Spells (d ++ e) follows (ts ++ us) :=
  hd.append_of_forall he fun _ _ _ _ => rfl

theorem mark {t : String} {k : Token} (h : ∀ cs, ∃ c w, t.toList ++ cs = c :: w ∧
    Token.next c w = (some k, cs)) : Spells (Doc.text t) (fun _ => false) [k] := by
  refine .text fun cs _ => ?_
  obtain ⟨c, w, hchars, hnext⟩ := h cs
  rw [hchars, Token.scan_cons, hnext]
  rfl

theorem word {t : String} {k : Token} (h : ∀ cs, ∃ c w, t.toList ++ cs = c :: w ∧
    Token.next c w = (some k, ' ' :: cs)) : Spells (Doc.text t) (fun _ => false) [k] := by
  refine .text fun cs _ => ?_
  obtain ⟨c, w, hchars, hnext⟩ := h cs
  rw [hchars, Token.scan_cons, hnext, Token.scan_blank]
  rfl

theorem spaced {t : String} {k : Token} (h : ∀ cs, ∃ c w, t.toList ++ cs = ' ' :: c :: w ∧
    Token.next c w = (some k, ' ' :: cs)) : Spells (Doc.text t) (fun _ => false) [k] := by
  refine .text fun cs _ => ?_
  obtain ⟨c, w, hchars, hnext⟩ := h cs
  rw [hchars, Token.scan_blank, Token.scan_cons, hnext, Token.scan_blank]
  rfl

theorem wrap (hd : Spells d joins ts) (hjoin : joins ')' = false) (wrapped : Bool) :
    Spells (wrapIf wrapped d) (fun c => !wrapped && joins c) (Token.wrapIf wrapped ts) := by
  cases wrapped with
  | false => exact hd
  | true =>
      have hopen : Spells (Doc.text "(") (fun _ => false) [.parenOpen] :=
        .mark fun _ => ⟨_, _, rfl, rfl⟩
      have hclose : Spells (Doc.text ")") (fun _ => false) [.parenClose] :=
        .mark fun _ => ⟨_, _, rfl, rfl⟩
      have hinner := (hopen.append_of_free hd).append hclose (c := ')') rfl hjoin
      simpa [wrapIf, Token.wrapIf] using hinner

theorem separated {α : Type} {f : α → Doc} {g : α → List Token} {l : List α}
    (hjoin : joins ',' = false) (h : ∀ a ∈ l, Spells (f a) joins (g a)) :
    Spells (separated ", " (l.map f)) joins (List.intercalate [.comma] (l.map g)) := by
  have hcomma : Spells (Doc.text ", ") (fun _ => false) [.comma] := .word fun _ => ⟨_, _, rfl, rfl⟩
  induction l with
  | nil => exact .nil
  | cons a l ih =>
      have ha := h a (by simp)
      have hrest := ih fun b hb => h b (by simp [hb])
      cases l with
      | nil => simpa [Doc.separated, List.intercalate] using ha
      | cons b l =>
          have hall := (ha.append hcomma (c := ',') rfl hjoin).append_of_free hrest
          simpa [separated_cons_cons, List.intercalate] using hall

theorem append_flatten {α : Type} {f : α → Doc} {g : α → List Token} {l : List α}
    (hd : Spells d joins ts) (hhead : ∀ a ∈ l, ∃ c, (f a).chars.head? = some c ∧ joins c = false)
    (h : ∀ a ∈ l, Spells (f a) joins (g a)) :
    Spells (d ++ (l.map f).flatten) joins (ts ++ l.flatMap g) := by
  induction l generalizing d ts with
  | nil => simpa using hd
  | cons a l ih =>
      obtain ⟨c, hc, hjoin⟩ := hhead a (by simp)
      have hrest := ih (hd.append (h a (by simp)) hc hjoin) (fun b hb => hhead b (by simp [hb]))
        fun b hb => h b (by simp [hb])
      simpa using hrest

theorem spacedOp (op : BinaryOp) :
    Spells (Doc.text " " ++ Doc.text op.token ++ Doc.text " ") (fun _ => false) [.op op] := by
  refine ⟨by simp [Doc.text, Piece.text?], fun cs _ => ?_⟩
  have hscan := Token.scan_op op cs
  simpa [chars_append, chars_text] using hscan

theorem name {n : String} (hn : Token.isName n = true) :
    Spells (Doc.text n) Token.isNameChar [.name n] :=
  .text fun _ hcs => Token.scan_name hn hcs

theorem number {x : Number} (hx : x.isShort = true) :
    Spells (Doc.text x.text) Token.isNumeralChar
      ((if x.isNegative then [.op .minus] else []) ++ [.number (x.natAbs?.getD 0)]) := by
  obtain ⟨n, hn, -, htext⟩ := Number.text_of_isShort hx
  refine .text fun cs hcs => ?_
  rw [htext, hn]
  cases x.isNegative with
  | false => simpa using Token.scan_number n hcs
  | true =>
      have hminus : ∀ c ∈ (Nat.toDigits 10 n ++ cs).head?, c ≠ '-' := by
        rintro c hc rfl
        have hmem : '-' ∈ Nat.toDigits 10 n := by
          obtain ⟨d, ds, hds⟩ := List.exists_cons_of_ne_nil (l := Nat.toDigits 10 n) (by simp)
          have hd : d = '-' := by simpa [hds] using hc
          simp [hds, hd]
        exact absurd (Nat.isDigit_of_mem_toDigits (by decide) (by decide) hmem) (by decide)
      have hscan := Token.scan_minus hminus
      rw [Token.scan_number n hcs] at hscan
      simpa using hscan

end Doc.Spells

end LuauSyntax
