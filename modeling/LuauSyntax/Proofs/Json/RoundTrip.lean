import LuauSyntax.Json.Read
import LuauSyntax.Json.Write
import LuauSyntax.Proofs.Json.Values
import LuauSyntax.Proofs.Node.Induction
import Mathlib.Data.List.ReduceOption

namespace LuauSyntax

open Json (Recovers)

@[simp]
theorem Expr.toJsons_eq_map (es : List Expr) : toJsons es = es.map toJson :=
  eq_map_of_cons rfl (fun _ _ => rfl) es

@[simp]
theorem Segment.toJsons_eq_map (ss : List Segment) : toJsons ss = ss.map toJson :=
  eq_map_of_cons rfl (fun _ _ => rfl) ss

@[simp]
theorem ElseIfExpr.toJsons_eq_map (bs : List ElseIfExpr) : toJsons bs = bs.map toJson :=
  eq_map_of_cons rfl (fun _ _ => rfl) bs

@[simp]
theorem TableField.toJsons_eq_map (fs : List TableField) : toJsons fs = fs.map toJson :=
  eq_map_of_cons rfl (fun _ _ => rfl) fs

@[simp]
theorem Suffix.toJsons_eq_map (ss : List Suffix) : toJsons ss = ss.map toJson :=
  eq_map_of_cons rfl (fun _ _ => rfl) ss

@[simp]
theorem GenericParam.toJsons_eq_map (gs : List GenericParam) : toJsons gs = gs.map toJson :=
  eq_map_of_cons rfl (fun _ _ => rfl) gs

@[simp]
theorem Ty.toJsons_eq_map (ts : List Ty) : toJsons ts = ts.map toJson :=
  eq_map_of_cons rfl (fun _ _ => rfl) ts

@[simp]
theorem TypeField.toJsons_eq_map (fs : List TypeField) : toJsons fs = fs.map toJson :=
  eq_map_of_cons rfl (fun _ _ => rfl) fs

@[simp]
theorem TypeArg.toJsons_eq_map (as : List TypeArg) : toJsons as = as.map toJson :=
  eq_map_of_cons rfl (fun _ _ => rfl) as

@[simp]
theorem Stmt.toJsons_eq_map (ss : List Stmt) : toJsons ss = ss.map toJson :=
  eq_map_of_cons rfl (fun _ _ => rfl) ss

@[simp]
theorem ElseIf.toJsons_eq_map (bs : List ElseIf) : toJsons bs = bs.map toJson :=
  eq_map_of_cons rfl (fun _ _ => rfl) bs

@[simp]
theorem Expr.optionToJson_eq (e : Option Expr) : optionToJson e = .ofOption toJson e := by
  cases e <;> rfl

@[simp]
theorem Ty.optionToJson_eq (t : Option Ty) : optionToJson t = .ofOption toJson t := by
  cases t <;> rfl

@[simp]
theorem GenericParam.declToJson_eq (gs : Option Generics) :
    declToJson gs = .ofOption .ofGenerics gs := by
  cases gs <;> rfl

@[simp]
theorem Stmt.optionToJson_eq (b : Option Block) : optionToJson b = .ofOption .ofBlock b := by
  cases b <;> rfl

@[simp]
theorem Ty.annotationsToJson_eq_map (ts : Annotations) :
    annotationsToJson ts = ts.map (.ofOption toJson) := by
  induction ts with
  | nil => rfl
  | cons t ts ih => rw [annotationsToJson, ih, optionToJson_eq, List.map_cons]

theorem Expr.readWithin_null (k : Nat) : readWithin k .null = none := by
  cases k <;> rfl

theorem Ty.readWithin_null (k : Nat) : readWithin k .null = none := by
  cases k <;> rfl

theorem GenericParam.readDecl_null (k : Nat) : readDecl k .null = none := by
  cases k <;> rfl

theorem Stmt.readBlock_null (k : Nat) : readBlock k .null = none := by
  cases k <;> rfl

def Node.ReadsBack : Node → Prop
  | .chunk c => Recovers Stmt.readBlock (.ofBlock c.block) c.block
  | .block b => Recovers Stmt.readBlock (.ofBlock b) b
  | .stmt s => Recovers Stmt.readWithin s.toJson s
  | .elseIf b => Recovers ElseIf.readWithin b.toJson b
  | .expr e => Recovers Expr.readWithin e.toJson e
  | .elseIfExpr b => Recovers ElseIfExpr.readWithin b.toJson b
  | .segment s => Recovers Segment.readWithin s.toJson s
  | .tableField f => Recovers TableField.readWithin f.toJson f
  | .functionBody b => Recovers FunctionBody.readWithin b.toJson b
  | .call c => Recovers Call.readWithin c.toJson c
  | .args as => Recovers Expr.readArgs (.ofArgs as) as
  | .callHead h => Recovers CallHead.readWithin h.toJson h
  | .suffix s => Recovers Suffix.readWithin s.toJson s
  | .parameter p => Parameter.ofJson? p.toJson = some p
  | .generics gs => Recovers GenericParam.readDecl (.ofGenerics gs) gs
  | .genericParam g => Recovers GenericParam.readWithin g.toJson g
  | .type t => Recovers Ty.readWithin t.toJson t
  | .typeField f => Recovers TypeField.readWithin f.toJson f
  | .typeArg a => Recovers TypeArg.readWithin a.toJson a

attribute [local simp] Json.tagged Json.wrapped Json.variant? Json.field? Json.str? Json.bool?
  List.lookup_cons

theorem Stmt.wrapped_toJsons (b : Block) : .wrapped "statements" (toJsons b) = Json.ofBlock b := rfl

theorem Expr.wrapped_toJsons (as : List Expr) :
    .wrapped "arguments" (toJsons as) = Json.ofArgs as := rfl

theorem Json.bind_eq_some {α β : Type} {x : Option α} {f : α → Option β} {a : α} {b : β}
    (hx : x = some a) (hf : f a = some b) : x.bind f = some b := by
  rw [hx, Option.bind_some, hf]

theorem Table.recovers (t : Table) (h : ∀ f ∈ t.fields, (Node.tableField f).ReadsBack) :
    Recovers readWithin t.toJson t := by
  obtain ⟨fs, padded⟩ := t
  refine .of_succ fun k hk => ?_
  dsimp only at h
  simp only [toJson, Json.depth, Json.fieldsDepth, TableField.toJsons_eq_map] at hk ⊢
  exact Json.bind_eq_some (Recovers.list h (by omega)) rfl

theorem Custom.recovers (n : Custom) (h : ∀ e ∈ n.children, (Node.expr e).ReadsBack) :
    Recovers readWithin n.toJson n := by
  obtain ⟨kind, es⟩ := n
  refine .of_succ fun k hk => ?_
  dsimp only at h
  simp only [toJson, Json.depth, Json.fieldsDepth, Expr.toJsons_eq_map] at hk ⊢
  exact Json.bind_eq_some (Recovers.list h (by omega)) rfl

theorem Expr.recovers (e : Expr) (h : ∀ m ∈ e.children, m.ReadsBack) :
    Recovers readWithin e.toJson e := by
  refine .of_succ fun k hk => ?_
  cases e
  all_goals
    simp only [children, Node.ofExprs, List.forall_mem_cons, List.forall_mem_append,
      List.forall_mem_map, List.not_mem_nil, false_implies, implies_true, and_true] at h
    simp only [toJson, Json.tagged, Json.depth, Json.fieldsDepth, Segment.toJsons_eq_map,
      ElseIfExpr.toJsons_eq_map] at hk
  case literal v => exact Json.bind_eq_some v.ofJson?_toJson rfl
  case symbol | varArgs => rfl
  case binary l op r =>
    obtain ⟨hl, hr⟩ := h
    refine Json.bind_eq_some (hl k (by omega)) ?_
    simp [hr k (by omega)]
  case unary op e =>
    refine Json.bind_eq_some op.ofJson?_toJson ?_
    simp [h k (by omega)]
  case table t => exact Json.bind_eq_some (t.recovers h k (by omega)) rfl
  case interpolated ss =>
    rw [toJson, Segment.toJsons_eq_map]
    exact Json.bind_eq_some (Recovers.list h (by omega)) rfl
  case assertion e t =>
    obtain ⟨he, ht⟩ := h
    refine Json.bind_eq_some (he k (by omega)) ?_
    simp [ht k (by omega)]
  case ifElse c t bs e =>
    obtain ⟨⟨hc, ht, hbs⟩, he⟩ := h
    have hbranches := Recovers.list hbs (k := k) (by omega)
    refine Json.bind_eq_some (hc k (by omega)) ?_
    simp [ht k (by omega), hbranches, he k (by omega)]
  case index t i =>
    obtain ⟨ht, hi⟩ := h
    refine Json.bind_eq_some (ht k (by omega)) ?_
    simp [hi k (by omega)]
  case custom n => exact Json.bind_eq_some (n.recovers h k (by omega)) rfl
  all_goals exact Json.bind_eq_some (h k (by omega)) rfl

theorem Ty.recovers (t : Ty) (h : ∀ m ∈ t.children, m.ReadsBack) :
    Recovers readWithin t.toJson t := by
  refine .of_succ fun k hk => ?_
  cases t
  all_goals
    simp only [children, Node.ofTypes, Node.ofType?, Node.ofGenerics, List.forall_mem_cons,
      List.forall_mem_append, List.forall_mem_map, Option.mem_toList, List.not_mem_nil,
      false_implies, implies_true, and_true] at h
    simp only [toJson, Json.tagged, Json.depth, Json.fieldsDepth, toJsons_eq_map, optionToJson_eq,
      TypeField.toJsons_eq_map, TypeArg.toJsons_eq_map, GenericParam.declToJson_eq] at hk
  case basic | boolean | string => rfl
  case array t a =>
    have ha : Json.option? Access.ofJson? (.ofOption Access.toJson a) = some a :=
      Json.option?_ofOption rfl Access.ofJson?_toJson a
    refine Json.bind_eq_some (h k (by omega)) ?_
    simp [ha]
  case table fs =>
    rw [toJson, TypeField.toJsons_eq_map]
    exact Json.bind_eq_some (Recovers.list h (by omega)) rfl
  case tuple ts r =>
    obtain ⟨hts, hr⟩ := h
    have hrest := Recovers.option readWithin_null hr (k := k) (by omega)
    rw [toJson, toJsons_eq_map]
    refine Json.bind_eq_some (Recovers.list hts (by omega)) ?_
    simp [hrest]
  case union ts | inter ts | generic _ ts =>
    rw [toJson, toJsons_eq_map]
    exact Json.bind_eq_some (Recovers.list h (by omega)) rfl
  case callback gs as t =>
    obtain ⟨⟨hgs, has⟩, ht⟩ := h
    have hargs := Recovers.list has (k := k) (by omega)
    rw [toJson, GenericParam.declToJson_eq]
    refine Json.bind_eq_some (Recovers.option GenericParam.readDecl_null hgs (by omega)) ?_
    simp [hargs, ht k (by omega)]
  all_goals exact Json.bind_eq_some (h k (by omega)) rfl

theorem Ty.list?_annotations {ts : Annotations} (h : ∀ m ∈ Node.ofAnnotations ts, m.ReadsBack)
    {k : Nat} (hk : Json.listDepth (ts.map (.ofOption toJson)) < k) :
    Json.list? (Json.option? (readWithin k)) (.arr (ts.map (.ofOption toJson))) = some ts := by
  have hread : ∀ t ∈ ts,
      Recovers (fun k => Json.option? (readWithin k)) (.ofOption toJson t) t := by
    intro t ht k hk
    refine Recovers.option readWithin_null (fun u hu => h (.type u) ?_) hk
    rw [Option.mem_def.mp hu, ← List.reduceOption_mem_iff] at ht
    exact List.mem_map_of_mem ht
  exact Recovers.list hread hk

theorem Stmt.recovers (s : Stmt) (h : ∀ m ∈ s.children, m.ReadsBack) :
    Recovers readWithin s.toJson s := by
  refine .of_succ fun k hk => ?_
  cases s
  all_goals
    simp only [children, Node.ofExprs, Node.ofGenerics, List.forall_mem_cons,
      List.forall_mem_append, List.forall_mem_map, Option.mem_toList, List.not_mem_nil,
      false_implies, implies_true, and_true] at h
    simp only [toJson, wrapped_toJsons, Json.tagged, Json.depth, Json.fieldsDepth,
      Expr.toJsons_eq_map, Ty.annotationsToJson_eq_map, Expr.optionToJson_eq, ElseIf.toJsons_eq_map,
      GenericParam.declToJson_eq, optionToJson_eq] at hk
  case breakLoop | continueLoop | goto | label | comment => rfl
  case assign ts op vs =>
    obtain ⟨hts, hvs⟩ := h
    have hvalues := Recovers.list hvs (k := k) (by omega)
    rw [toJson, Expr.toJsons_eq_map ts]
    refine Json.bind_eq_some (Recovers.list hts (by omega)) ?_
    simp [hvalues]
  case localDecl ns ts vs =>
    obtain ⟨hts, hvs⟩ := h
    have htypes := Ty.list?_annotations hts (k := k) (by omega)
    have hvalues := Recovers.list hvs (k := k) (by omega)
    refine Json.bind_eq_some (Json.list?_str ns) ?_
    simp [htypes, hvalues]
  case function n b =>
    refine Json.bind_eq_some n.ofJson?_toJson ?_
    simp [h k (by omega)]
  case ifThen c t bs e =>
    obtain ⟨⟨hc, ht, hbs⟩, he⟩ := h
    have hthen := ht k (by omega)
    have hbranches := Recovers.list hbs (k := k) (by omega)
    have helse := Recovers.option readBlock_null he (k := k) (by omega)
    rw [toJson, wrapped_toJsons]
    refine Json.bind_eq_some (hc k (by omega)) ?_
    simp [hthen, hbranches, helse]
  case whileDo c b =>
    obtain ⟨hc, hb⟩ := h
    rw [toJson, wrapped_toJsons]
    refine Json.bind_eq_some (hc k (by omega)) ?_
    simp [hb k (by omega)]
  case numericFor n a z s b =>
    obtain ⟨⟨ha, hz, hs⟩, hb⟩ := h
    have hstep := Recovers.option Expr.readWithin_null hs (k := k) (by omega)
    rw [toJson, wrapped_toJsons]
    refine Json.bind_eq_some (ha k (by omega)) ?_
    simp [hz k (by omega), hstep, hb k (by omega)]
  case genericFor ns es b =>
    obtain ⟨hes, hb⟩ := h
    have hexprs := Recovers.list hes (k := k) (by omega)
    rw [toJson, wrapped_toJsons]
    refine Json.bind_eq_some (Json.list?_str ns) ?_
    simp [hexprs, hb k (by omega)]
  case repeatUntil b c =>
    obtain ⟨hb, hc⟩ := h
    refine Json.bind_eq_some (hb k (by omega)) ?_
    simp [hc k (by omega)]
  case doBlock b => exact Json.bind_eq_some (h k (by omega)) rfl
  case returns vs =>
    rw [toJson, Expr.toJsons_eq_map]
    exact Json.bind_eq_some (Recovers.list h (by omega)) rfl
  case typeDecl x n gs t =>
    obtain ⟨hgs, ht⟩ := h
    rw [toJson, GenericParam.declToJson_eq]
    refine Json.bind_eq_some (Recovers.option GenericParam.readDecl_null hgs (by omega)) ?_
    simp [ht k (by omega)]
  case custom n => exact Json.bind_eq_some (n.recovers h k (by omega)) rfl
  case call c => exact Json.bind_eq_some (h k (by omega)) rfl

theorem FunctionBody.recovers (b : FunctionBody) (h : ∀ m ∈ b.children, m.ReadsBack) :
    Recovers readWithin b.toJson b := by
  obtain ⟨gs, ps, ts, r, body⟩ := b
  refine .of_succ fun k hk => ?_
  have hps : Json.list? Parameter.ofJson? (.ofList Parameter.toJson ps) = some ps :=
    Json.list?_ofList Parameter.ofJson?_toJson ps
  simp only [children, Node.ofGenerics, Node.ofType?, List.forall_mem_append, List.forall_mem_map,
    List.forall_mem_singleton, Option.mem_toList] at h
  obtain ⟨⟨⟨⟨hgs, -⟩, hts⟩, hr⟩, hbody⟩ := h
  rw [toJson, GenericParam.declToJson_eq, Ty.annotationsToJson_eq_map, Ty.optionToJson_eq,
    Stmt.wrapped_toJsons] at hk ⊢
  simp only [Json.depth, Json.fieldsDepth] at hk
  have htypes := Ty.list?_annotations hts (k := k) (by omega)
  have hreturns := Recovers.option Ty.readWithin_null hr (k := k) (by omega)
  refine Json.bind_eq_some (Recovers.option GenericParam.readDecl_null hgs (by omega)) ?_
  simp [hps, htypes, hreturns, hbody k (by omega)]

theorem GenericParam.recovers (g : GenericParam) (h : ∀ m ∈ g.children, m.ReadsBack) :
    Recovers readWithin g.toJson g := by
  obtain ⟨n, b, d⟩ := g
  refine .of_succ fun k hk => ?_
  simp only [children, Node.ofType?, List.forall_mem_append, List.forall_mem_map,
    Option.mem_toList] at h
  obtain ⟨hb, hd⟩ := h
  rw [toJson, Ty.optionToJson_eq, Ty.optionToJson_eq] at hk ⊢
  simp only [Json.depth, Json.fieldsDepth] at hk
  have hbound := Recovers.option Ty.readWithin_null hb (k := k) (by omega)
  have hdefault := Recovers.option Ty.readWithin_null hd (k := k) (by omega)
  refine Json.bind_eq_some n.ofJson?_toJson ?_
  simp [hbound, hdefault]

theorem Call.recovers (c : Call) (h : ∀ m ∈ c.children, m.ReadsBack) :
    Recovers readWithin c.toJson c := by
  obtain ⟨head, ss⟩ := c
  refine .of_succ fun k hk => ?_
  simp only [children, List.forall_mem_cons, List.forall_mem_map] at h
  obtain ⟨hhead, hss⟩ := h
  rw [toJson, Suffix.toJsons_eq_map] at hk ⊢
  simp only [Json.depth, Json.fieldsDepth] at hk
  have hsuffixes := Recovers.list hss (k := k) (by omega)
  refine Json.bind_eq_some (hhead k (by omega)) ?_
  simp [hsuffixes]

theorem CallHead.recovers (head : CallHead) (h : ∀ m ∈ head.children, m.ReadsBack) :
    Recovers readWithin head.toJson head := by
  refine .of_succ fun k hk => ?_
  cases head with
  | name n => rfl
  | expr e =>
      simp only [children, List.forall_mem_singleton] at h
      simp only [toJson, Json.tagged, Json.depth, Json.fieldsDepth] at hk
      exact Json.bind_eq_some (h k (by omega)) rfl

theorem Suffix.recovers (s : Suffix) (h : ∀ m ∈ s.children, m.ReadsBack) :
    Recovers readWithin s.toJson s := by
  refine .of_succ fun k hk => ?_
  cases s with
  | dot n => rfl
  | brackets e =>
      simp only [children, List.forall_mem_singleton] at h
      simp only [toJson, Json.tagged, Json.depth, Json.fieldsDepth] at hk
      exact Json.bind_eq_some (h k (by omega)) rfl
  | call as | method _ as =>
      simp only [children, List.forall_mem_singleton] at h
      simp only [toJson, Expr.wrapped_toJsons, Json.tagged, Json.depth, Json.fieldsDepth] at hk
      exact Json.bind_eq_some (h k (by omega)) rfl

theorem ElseIf.recovers (b : ElseIf) (h : ∀ m ∈ b.children, m.ReadsBack) :
    Recovers readWithin b.toJson b := by
  obtain ⟨c, b⟩ := b
  refine .of_succ fun k hk => ?_
  simp only [children, List.forall_mem_cons] at h
  obtain ⟨hc, hb, -⟩ := h
  rw [toJson, Stmt.wrapped_toJsons] at hk ⊢
  simp only [Json.depth, Json.fieldsDepth] at hk
  refine Json.bind_eq_some (hc k (by omega)) ?_
  simp [hb k (by omega)]

theorem ElseIfExpr.recovers (b : ElseIfExpr) (h : ∀ m ∈ b.children, m.ReadsBack) :
    Recovers readWithin b.toJson b := by
  obtain ⟨c, v⟩ := b
  refine .of_succ fun k hk => ?_
  simp only [children, List.forall_mem_cons] at h
  obtain ⟨hc, hv, -⟩ := h
  simp only [toJson, Json.depth, Json.fieldsDepth] at hk
  refine Json.bind_eq_some (hc k (by omega)) ?_
  simp [toJson, hv k (by omega)]

theorem Segment.recovers (s : Segment) (h : ∀ m ∈ s.children, m.ReadsBack) :
    Recovers readWithin s.toJson s := by
  refine .of_succ fun k hk => ?_
  cases s with
  | text t => rfl
  | expr e =>
      simp only [children, List.forall_mem_singleton] at h
      simp only [toJson, Json.tagged, Json.depth, Json.fieldsDepth] at hk
      exact Json.bind_eq_some (h k (by omega)) rfl

theorem TableField.recovers (f : TableField) (h : ∀ m ∈ f.children, m.ReadsBack) :
    Recovers readWithin f.toJson f := by
  refine .of_succ fun k hk => ?_
  cases f with
  | keyed i v =>
      simp only [children, List.forall_mem_cons] at h
      simp only [toJson, Json.tagged, Json.depth, Json.fieldsDepth] at hk
      obtain ⟨hi, hv, -⟩ := h
      refine Json.bind_eq_some (hi k (by omega)) ?_
      simp [hv k (by omega)]
  | positional v | named _ v =>
      simp only [children, List.forall_mem_singleton] at h
      simp only [toJson, Json.tagged, Json.depth, Json.fieldsDepth] at hk
      exact Json.bind_eq_some (h k (by omega)) rfl

theorem TypeField.recovers (f : TypeField) (h : ∀ m ∈ f.children, m.ReadsBack) :
    Recovers readWithin f.toJson f := by
  have haccess (a : Option Access) :
      Json.option? Access.ofJson? (.ofOption Access.toJson a) = some a :=
    Json.option?_ofOption rfl Access.ofJson?_toJson a
  refine .of_succ fun k hk => ?_
  cases f with
  | named a n v =>
      simp only [children, List.forall_mem_singleton] at h
      simp only [toJson, Json.depth, Json.fieldsDepth] at hk
      refine Json.bind_eq_some (haccess a) ?_
      simp [toJson, h k (by omega)]
  | indexed a i v =>
      simp only [children, List.forall_mem_cons] at h
      simp only [toJson, Json.tagged, Json.depth, Json.fieldsDepth] at hk
      obtain ⟨hi, hv, -⟩ := h
      refine Json.bind_eq_some (haccess a) ?_
      simp [toJson, hi k (by omega), hv k (by omega)]

theorem TypeArg.recovers (a : TypeArg) (h : ∀ m ∈ a.children, m.ReadsBack) :
    Recovers readWithin a.toJson a := by
  obtain ⟨n, t⟩ := a
  refine .of_succ fun k hk => ?_
  simp only [children, List.forall_mem_singleton] at h
  simp only [toJson, Json.depth, Json.fieldsDepth] at hk
  refine Json.bind_eq_some (Json.option?_str n) ?_
  simp [toJson, h k (by omega)]

theorem Node.readsBack_of_children (n : Node) (h : ∀ m ∈ n.children, m.ReadsBack) :
    n.ReadsBack := by
  cases n with
  | chunk c => exact h (.block c.block) (List.mem_singleton.mpr rfl)
  | stmt s => exact s.recovers h
  | elseIf b => exact b.recovers h
  | expr e => exact e.recovers h
  | elseIfExpr b => exact b.recovers h
  | segment s => exact s.recovers h
  | tableField f => exact f.recovers h
  | functionBody b => exact b.recovers h
  | call c => exact c.recovers h
  | callHead head => exact head.recovers h
  | suffix s => exact s.recovers h
  | parameter p => exact p.ofJson?_toJson
  | genericParam g => exact g.recovers h
  | type t => exact t.recovers h
  | typeField f => exact f.recovers h
  | typeArg a => exact a.recovers h
  | block b =>
      rw [ReadsBack, Json.ofBlock, Stmt.toJsons_eq_map]
      exact .wrapped (fun _ _ => rfl) (List.forall_mem_map.mp h)
  | args as =>
      rw [ReadsBack, Json.ofArgs, Expr.toJsons_eq_map]
      exact .wrapped (fun _ _ => rfl) (List.forall_mem_map.mp h)
  | generics gs =>
      rw [ReadsBack, Json.ofGenerics, GenericParam.toJsons_eq_map]
      exact .wrapped (fun _ _ => rfl) (List.forall_mem_map.mp h)

theorem Node.readsBack (n : Node) : n.ReadsBack := by
  induction n using Node.inductionOn with
  | step n ih => exact n.readsBack_of_children ih

theorem Node.kind_of_ofJson? {kind : Kind} {j : Json} {n : Node} (h : ofJson? kind j = some n) :
    n.kind = kind := by
  cases kind <;> obtain ⟨a, -, rfl⟩ := Option.map_eq_some_iff.mp h <;> rfl

theorem Node.ofJson?_toJson (n : Node) : ofJson? n.kind n.toJson = some n := by
  have hread {α : Type} {read : Nat → Json → Option α} {j : Json} {a : α} (h : Recovers read j a) :
      read j.limit j = some a := h _ (Nat.lt_succ_self _)
  have h := n.readsBack
  cases n with
  | chunk c =>
      have hb : (Json.ofBlock c.block).block? = some c.block := hread h
      simp [kind, ofJson?, toJson, Chunk.toJson, Chunk.ofJson?, hb]
  | parameter p => exact congrArg (Option.map parameter) p.ofJson?_toJson
  | _ => exact congrArg (Option.map _) (hread h)

theorem Node.json_roundTrip :
    (∀ n : Node, ofJson? n.kind n.toJson = some n) ∧
    (∀ m n : Node, m.kind = n.kind → m.toJson = n.toJson → m = n) ∧
    (∀ (kind : Kind) (j : Json) (n : Node), ofJson? kind j = some n →
      ofJson? kind n.toJson = some n) := by
  refine ⟨ofJson?_toJson, fun m n hkind hjson => ?_, fun kind j n h => ?_⟩
  · have hm := m.ofJson?_toJson
    rw [hkind, hjson, n.ofJson?_toJson] at hm
    exact (Option.some.inj hm).symm
  · rw [← kind_of_ofJson? h]
    exact n.ofJson?_toJson

end LuauSyntax
