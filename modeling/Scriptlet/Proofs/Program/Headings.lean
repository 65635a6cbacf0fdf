import Scriptlet.Program.Outline
import Scriptlet.Proofs.Program.Legibility
import Scriptlet.Proofs.Text.Quoting
import Scriptlet.Proofs.Text.Splitting
import Scriptlet.Proofs.Value.Literal

/-!
# Headings: the lines of an outline

A line of an outline is a word for the kind of node it stands for and then, behind a space, what the
node has besides its children. The word ends at the space. A name ends before the colon or the
bracket behind it, since it holds neither, a list of parameters before the bracket, and a type is
told by its levels and its scalar. So two lines that look alike say the same.
-/

namespace Scriptlet

open Grammar Lexer

/-- The parameter is a word and a type that values can have, without a place. -/
structure Param.Legible (p : Param) : Prop where
  name : p.name.Word
  type : p.type.Known
  bare : p.span = .origin

/-- The kinds of nodes that have a line in an outline. -/
inductive Heading where
  | int | str | bool | ident | vec | unary | binary | call | index
  | letVar | assign | assignAt | when | yes | no | loop | stop | ret | exit | fn
deriving DecidableEq

namespace Heading

/-- Every heading. -/
def all : List Heading :=
  [.int, .str, .bool, .ident, .vec, .unary, .binary, .call, .index,
    .letVar, .assign, .assignAt, .when, .yes, .no, .loop, .stop, .ret, .exit, .fn]

/-- The word that a line begins with. -/
def word : Heading → Bytes
  | .int => utf8 "Int"
  | .str => utf8 "Str"
  | .bool => utf8 "Bool"
  | .ident => utf8 "Ident"
  | .vec => utf8 "Vec"
  | .unary => utf8 "Unary"
  | .binary => utf8 "Binary"
  | .call => utf8 "Call"
  | .index => utf8 "Index"
  | .letVar => utf8 "Let"
  | .assign => utf8 "Assign"
  | .assignAt => utf8 "IndexAssign"
  | .when => utf8 "If"
  | .yes => utf8 "Then"
  | .no => utf8 "Else"
  | .loop => utf8 "Loop"
  | .stop => utf8 "Break"
  | .ret => utf8 "Return"
  | .exit => utf8 "Exit"
  | .fn => utf8 "Fn"

/-- What a node of the kind has besides its children. -/
def Detail : Heading → Type
  | .int => Int64
  | .str => Bytes
  | .bool => Bool
  | .ident | .call | .assign | .assignAt => Bytes
  | .binary => BinOp
  | .letVar => Bytes × Option Ty
  | .fn => Bytes × List Param × Option Ty
  | .vec | .unary | .index | .when | .yes | .no | .loop | .stop | .ret | .exit => Unit

/-- A type behind a mark, if there is one. -/
def typePart (mark : Bytes) : Option Ty → Bytes
  | none => []
  | some t => mark ++ t.render

/-- A parameter of a function with its type. -/
def parameter (p : Param) : Bytes := p.name ++ utf8 ": " ++ p.type.render

/-- What a line says behind its word, if anything. -/
def said : (h : Heading) → h.Detail → Option Bytes
  | .int, (n : Int64) => some (signedDecimal n.toInt)
  | .str, (s : Bytes) => some (quoted s)
  | .bool, (b : Bool) => some (utf8 (if b then "true" else "false"))
  | .ident, (name : Bytes) => some name
  | .call, (name : Bytes) => some name
  | .assign, (name : Bytes) => some name
  | .assignAt, (name : Bytes) => some name
  | .unary, _ => some (utf8 "-")
  | .binary, (op : BinOp) => some op.symbol
  | .letVar, (name, type) => some (name ++ typePart (utf8 ": ") type)
  | .fn, (name, params, result) =>
    some (name ++ (utf8 "(" ++ ((utf8 ", ").intercalate (params.map parameter) ++
      (utf8 ")" ++ typePart (utf8 " -> ") result))))
  | .vec, _ | .index, _ | .when, _ | .yes, _ | .no, _ | .loop, _ | .stop, _ | .ret, _ | .exit, _ =>
    none

/-- The names are words and the types are types of values. -/
def Legible : (h : Heading) → h.Detail → Prop
  | .ident, (name : Bytes) => name.Word
  | .call, (name : Bytes) => name.Word
  | .assign, (name : Bytes) => name.Word
  | .assignAt, (name : Bytes) => name.Word
  | .letVar, (name, type) => name.Word ∧ ∀ t ∈ type, t.Known
  | .fn, (name, params, result) =>
    name.Word ∧ (∀ p ∈ params, p.Legible) ∧ ∀ t ∈ result, t.Known
  | .int, _ | .str, _ | .bool, _ | .unary, _ | .binary, _ | .vec, _ | .index, _ | .when, _
  | .yes, _ | .no, _ | .loop, _ | .stop, _ | .ret, _ | .exit, _ => True

end Heading

/-! ## Numbers, operators and names -/

theorem signedDecimal_injective {i j : Int} (h : signedDecimal i = signedDecimal j) : i = j := by
  -- No digit is a minus, so the first byte tells whether the number is negative.
  have hsign (n : Nat) (t : Bytes) : decimal n ≠ byte '-' :: t := by
    intro hmark
    have hdigit := digits_decimal n (byte '-') (by rw [hmark]; exact List.mem_cons_self)
    revert hdigit
    decide
  have hvalue {m n : Nat} (h : decimal m = decimal n) : m = n := by
    rw [← decimalValue_decimal m, h, decimalValue_decimal]
  unfold signedDecimal at h
  split at h
  · split at h
    · have := hvalue (List.cons.inj h).2
      omega
    · exact absurd h.symm (hsign _ _)
  · split at h
    · exact absurd h (hsign _ _)
    · have := hvalue h
      omega

theorem lineFeed_not_mem_signedDecimal {i : Int} : 10 ∉ signedDecimal i := by
  have hdecimal (n : Nat) : 10 ∉ decimal n := fun hmem =>
    absurd (digits_decimal n 10 hmem) (by decide)
  unfold signedDecimal
  split
  · exact List.not_mem_cons_of_ne_of_not_mem (by decide) (hdecimal _)
  · exact hdecimal _

theorem BinOp.symbol_injective {op op' : BinOp} (h : op.symbol = op'.symbol) : op = op' := by
  revert h
  cases op <;> cases op' <;> decide

/-- An ASCII byte that no word goes on with is in no word. -/
theorem Bytes.Word.not_mem {w : Bytes} {b : UInt8} (h : w.Word) (hascii : b < 0x80)
    (hb : continuesWord (Char.ofNat b.toNat) = false) : b ∉ w := by
  obtain ⟨g, gs, hglyphs, hstart, hrest⟩ := h
  have hall : ∀ g ∈ glyphs w, continuesWord g.char = true := by
    intro g' hg'
    rw [hglyphs] at hg'
    rcases List.mem_cons.1 hg' with rfl | hg'
    · rw [continuesWord, hstart, Bool.true_or]
    · exact hrest g' hg'
  intro hmem
  rw [← flatMap_bytes_glyphs w] at hmem
  obtain ⟨g', hg', hmem⟩ := List.mem_flatMap.1 hmem
  have hword := hall g' hg'
  rw [eq_of_mem_bytes hg' hmem hascii, hb] at hword
  cases hword

/-! ## Types -/

theorem Bytes.mem_times {n : Nat} {w : Bytes} {b : UInt8} (hb : b ∈ Bytes.times n w) : b ∈ w := by
  obtain ⟨part, hpart, hb⟩ := List.mem_flatten.1 hb
  rw [List.eq_of_mem_replicate hpart] at hb
  exact hb

theorem Bytes.count_times (b : UInt8) (n : Nat) (w : Bytes) :
    (Bytes.times n w).count b = n * w.count b := by
  unfold Bytes.times
  rw [List.count_flatten, List.map_replicate, List.sum_replicate_nat]

/-- The bytes that types are written in: angle brackets and small letters. -/
def Ty.Letter (b : UInt8) : Prop := b = 60 ∨ b = 62 ∨ 97 ≤ b ∧ b ≤ 122

instance (b : UInt8) : Decidable (Ty.Letter b) := inferInstanceAs (Decidable (_ ∨ _ ∨ _ ∧ _))

theorem Ty.letter_of_mem_render {t : Ty} {b : UInt8} (hb : b ∈ t.render) : Letter b := by
  have hparts : ∀ w ∈ [utf8 "invalid", utf8 "int", utf8 "str", utf8 "bool", utf8 "vec<", utf8 ">"],
      ∀ b ∈ w, Letter b := by decide +kernel
  obtain ⟨scalar, dims⟩ := t
  have hlevels {name : Bytes} (hname : ∀ b ∈ name, Letter b)
      (hb : b ∈ Bytes.times dims (utf8 "vec<") ++ name ++ Bytes.times dims (utf8 ">")) :
      Letter b := by
    rcases List.mem_append.1 hb with hb | hb
    · rcases List.mem_append.1 hb with hb | hb
      · exact hparts _ (by simp) b (Bytes.mem_times hb)
      · exact hname b hb
    · exact hparts _ (by simp) b (Bytes.mem_times hb)
  cases scalar with
  | invalid => exact hparts (utf8 "invalid") (by simp) b hb
  | int => exact hlevels (hparts _ (by simp)) hb
  | str => exact hlevels (hparts _ (by simp)) hb
  | bool => exact hlevels (hparts _ (by simp)) hb

theorem Ty.not_mem_render {t : Ty} {b : UInt8} (hb : ¬ Letter b) : b ∉ t.render :=
  fun hmem => hb (letter_of_mem_render hmem)

/-- A type that a value can have is written with an opening bracket for each level. -/
theorem Ty.count_render {t : Ty} (h : t.Known) : t.render.count 60 = t.dims := by
  have hscalar (name : Bytes) (hname : name.count 60 = 0) :
      (Bytes.times t.dims (utf8 "vec<") ++ name ++ Bytes.times t.dims (utf8 ">")).count 60 =
        t.dims := by
    rw [List.count_append, List.count_append, Bytes.count_times, Bytes.count_times, hname]
    exact Nat.mul_one _
  obtain ⟨scalar, dims⟩ := t
  cases scalar with
  | invalid => exact absurd rfl h
  | int => exact hscalar (utf8 "int") (by decide)
  | str => exact hscalar (utf8 "str") (by decide)
  | bool => exact hscalar (utf8 "bool") (by decide)

/-- A type that a value can have is told by how it is written. -/
theorem Ty.render_injective {t u : Ty} (ht : t.Known) (hu : u.Known) (h : t.render = u.render) :
    t = u := by
  have hdims : t.dims = u.dims := by rw [← count_render ht, h, count_render hu]
  -- With as many levels around them, the scalars stand at the same place.
  obtain ⟨scalar, dims⟩ := t
  obtain ⟨scalar', dims'⟩ := u
  dsimp only at hdims
  subst hdims
  have hname {name name' : Bytes} (h : Bytes.times dims (utf8 "vec<") ++ name ++
      Bytes.times dims (utf8 ">") = Bytes.times dims (utf8 "vec<") ++ name' ++
      Bytes.times dims (utf8 ">")) : name = name' :=
    List.append_cancel_left (List.append_cancel_right h)
  have hscalar : scalarName scalar = scalarName scalar' := by
    cases scalar with
    | invalid => exact absurd rfl ht
    | int | str | bool =>
      cases scalar' with
      | invalid => exact absurd rfl hu
      | int | str | bool => exact congrArg some (hname h)
  have htold : ∀ s s' : Scalar, scalarName s = scalarName s' → s = s' := by
    intro s s'
    cases s <;> cases s' <;> decide
  rw [htold _ _ hscalar]

/-! ## Signatures -/

namespace Heading

theorem typePart_injective {mark : Bytes} {r r' : Option Ty} (hmark : mark ≠ [])
    (hr : ∀ t ∈ r, t.Known) (hr' : ∀ t ∈ r', t.Known)
    (h : typePart mark r = typePart mark r') : r = r' := by
  cases r with
  | none =>
    cases r' with
    | none => rfl
    | some t => exact absurd (List.append_eq_nil_iff.1 h.symm).1 hmark
  | some t =>
    cases r' with
    | none => exact absurd (List.append_eq_nil_iff.1 h).1 hmark
    | some t' => rw [Ty.render_injective (hr t rfl) (hr' t' rfl) (List.append_cancel_left h)]

theorem head_typePart {b : UInt8} {mark : Bytes} {r : Option Ty} :
    ∀ c ∈ (typePart (b :: mark) r).head?, c = b := by
  cases r with
  | none => nofun
  | some t =>
    rintro c ⟨⟩
    rfl

theorem not_mem_typePart {mark : Bytes} {r : Option Ty} {b : UInt8} (hmark : b ∉ mark)
    (hb : ¬ Ty.Letter b) : b ∉ typePart mark r := by
  cases r with
  | none => exact List.not_mem_nil
  | some t =>
    intro hmem
    rcases List.mem_append.1 hmem with h | h
    · exact hmark h
    · exact Ty.not_mem_render hb h

theorem parameter_ne_nil {p : Param} : parameter p ≠ [] := by
  intro h
  exact absurd (List.append_eq_nil_iff.1 (List.append_eq_nil_iff.1 h).1).2 (by decide)

/-- The bytes that end a parameter, a list of them and a line are not in a parameter. -/
theorem not_mem_parameter {p : Param} (hp : p.Legible) {b : UInt8} (hb : b ∈ [10, 41, 44]) :
    b ∉ parameter p := by
  have hapart : ∀ b ∈ [(10 : UInt8), 41, 44], b < 0x80 ∧
      continuesWord (Char.ofNat b.toNat) = false ∧ b ∉ utf8 ": " ∧ ¬ Ty.Letter b := by
    decide +kernel
  obtain ⟨hascii, hword, hmark, htype⟩ := hapart b hb
  intro hmem
  rcases List.mem_append.1 hmem with h | h
  · rcases List.mem_append.1 h with h | h
    · exact hp.name.not_mem hascii hword h
    · exact hmark h
  · exact Ty.not_mem_render htype h

/-- A name ends before a mark that begins with a byte of no word. -/
theorem name_injective {name name' t t' : Bytes} {b : UInt8} (hname : name.Word)
    (hname' : name'.Word) (hb : b < 0x80 ∧ continuesWord (Char.ofNat b.toNat) = false)
    (ht : ∀ c ∈ t.head?, c = b) (ht' : ∀ c ∈ t'.head?, c = b) (h : name ++ t = name' ++ t') :
    name = name' ∧ t = t' :=
  before_injective (hname.not_mem hb.1 hb.2) (hname'.not_mem hb.1 hb.2) ht ht' h

theorem parameter_injective {p q : Param} (hp : p.Legible) (hq : q.Legible)
    (h : parameter p = parameter q) : p = q := by
  unfold parameter at h
  rw [List.append_assoc, List.append_assoc] at h
  obtain ⟨hname, hrest⟩ := name_injective hp.name hq.name (b := 58) (by decide +kernel)
    (by rintro c ⟨⟩; rfl) (by rintro c ⟨⟩; rfl) h
  have htype := Ty.render_injective hp.type hq.type (List.append_cancel_left hrest)
  have hspan : p.span = q.span := hp.bare.trans hq.bare.symm
  cases p
  cases q
  dsimp only at hname htype hspan
  rw [hname, htype, hspan]

theorem not_mem_parameters {params : List Param} (hparams : ∀ p ∈ params, p.Legible) {b : UInt8}
    (hb : b ∈ [10, 41]) : b ∉ (utf8 ", ").intercalate (params.map parameter) := by
  have hsep : ∀ b ∈ [(10 : UInt8), 41], b ∉ utf8 ", " ∧ b ∈ [10, 41, 44] := by decide +kernel
  refine not_mem_intercalate (hsep b hb).1 fun shown hshown => ?_
  obtain ⟨p, hp, rfl⟩ := List.mem_map.1 hshown
  exact not_mem_parameter (hparams p hp) (hsep b hb).2

theorem parameters_injective {ps qs : List Param} (hps : ∀ p ∈ ps, p.Legible)
    (hqs : ∀ q ∈ qs, q.Legible) (h : (utf8 ", ").intercalate (ps.map parameter) =
      (utf8 ", ").intercalate (qs.map parameter)) : ps = qs := by
  have hitems {rs : List Param} (hrs : ∀ r ∈ rs, r.Legible) :
      ∀ shown ∈ rs.map parameter, shown ≠ [] ∧ 44 ∉ shown := by
    intro shown hshown
    obtain ⟨r, hr, rfl⟩ := List.mem_map.1 hshown
    exact ⟨parameter_ne_nil, not_mem_parameter (hrs r hr) (by decide)⟩
  exact map_injective parameter_injective hps hqs
    (intercalate_injective [32] (hitems hps) (hitems hqs) h)

/-- A name with a type behind it, if there is one, says both. -/
theorem variable_injective {name name' : Bytes} {type type' : Option Ty} (hname : name.Word)
    (hname' : name'.Word) (htype : ∀ t ∈ type, t.Known) (htype' : ∀ t ∈ type', t.Known)
    (h : name ++ typePart (utf8 ": ") type = name' ++ typePart (utf8 ": ") type') :
    name = name' ∧ type = type' := by
  obtain ⟨rfl, hrest⟩ := name_injective hname hname' (b := 58) (by decide +kernel)
    head_typePart head_typePart h
  exact ⟨rfl, typePart_injective (by decide) htype htype' hrest⟩

/-- What is said of a function says its name, its parameters and its result. -/
theorem function_injective {name name' : Bytes} {params params' : List Param}
    {result result' : Option Ty} (hd : Legible .fn (name, params, result))
    (hd' : Legible .fn (name', params', result'))
    (h : said .fn (name, params, result) = said .fn (name', params', result')) :
    name = name' ∧ params = params' ∧ result = result' := by
  obtain ⟨hname, hparams, hresult⟩ := hd
  obtain ⟨hname', hparams', hresult'⟩ := hd'
  obtain ⟨rfl, hrest⟩ := name_injective hname hname' (b := 40) (by decide +kernel)
    (by rintro c ⟨⟩; rfl) (by rintro c ⟨⟩; rfl) (Option.some.inj h)
  obtain ⟨hlist, hrest⟩ := before_injective (not_mem_parameters hparams (b := 41) (by decide))
    (not_mem_parameters hparams' (by decide)) (by rintro c ⟨⟩; rfl) (by rintro c ⟨⟩; rfl)
    (List.append_cancel_left hrest)
  exact ⟨rfl, parameters_injective hparams hparams' hlist,
    typePart_injective (by decide) hresult hresult' (List.append_cancel_left hrest)⟩

/-! ## Lines -/

/-- What is said behind a word says the same only of the same. -/
theorem said_injective : ∀ {h : Heading} {d d' : h.Detail}, h.Legible d → h.Legible d' →
    h.said d = h.said d' → d = d'
  | .int, _, _, _, _, heq => Int64.toInt_inj.1 (signedDecimal_injective (Option.some.inj heq))
  | .str, _, _, _, _, heq => quoted_injective (Option.some.inj heq)
  | .bool, b, b', _, _, heq =>
    have htold : ∀ b b' : Bool, utf8 (if b then "true" else "false") =
        utf8 (if b' then "true" else "false") → b = b' := by decide
    htold b b' (Option.some.inj heq)
  | .ident, _, _, _, _, heq => Option.some.inj heq
  | .call, _, _, _, _, heq => Option.some.inj heq
  | .assign, _, _, _, _, heq => Option.some.inj heq
  | .assignAt, _, _, _, _, heq => Option.some.inj heq
  | .binary, _, _, _, _, heq => BinOp.symbol_injective (Option.some.inj heq)
  | .letVar, (_, _), (_, _), hd, hd', heq => by
    obtain ⟨rfl, rfl⟩ := variable_injective hd.1 hd'.1 hd.2 hd'.2 (Option.some.inj heq)
    rfl
  | .fn, (_, _, _), (_, _, _), hd, hd', heq => by
    obtain ⟨rfl, rfl, rfl⟩ := function_injective hd hd' heq
    rfl
  | .unary, _, _, _, _, _ | .vec, _, _, _, _, _ | .index, _, _, _, _, _ | .when, _, _, _, _, _
  | .yes, _, _, _, _, _ | .no, _, _, _, _, _ | .loop, _, _, _, _, _ | .stop, _, _, _, _, _
  | .ret, _, _, _, _, _ | .exit, _, _, _, _, _ => rfl

/-- What a line says has no line break in it. -/
theorem lineFeed_not_mem_said : ∀ {h : Heading} {d : h.Detail}, h.Legible d →
    ∀ t ∈ h.said d, 10 ∉ t
  | .int, _, _, _, rfl => lineFeed_not_mem_signedDecimal
  | .str, s, _, _, rfl => lineFeed_not_mem_quoted
  | .bool, b, _, _, rfl => by cases b <;> decide
  | .ident, _, hd, _, rfl => hd.not_mem (by decide) (by decide +kernel)
  | .call, _, hd, _, rfl => hd.not_mem (by decide) (by decide +kernel)
  | .assign, _, hd, _, rfl => hd.not_mem (by decide) (by decide +kernel)
  | .assignAt, _, hd, _, rfl => hd.not_mem (by decide) (by decide +kernel)
  | .binary, op, _, _, rfl => by cases op <;> decide
  | .letVar, (_, _), hd, _, rfl =>
    List.not_mem_append (hd.1.not_mem (by decide) (by decide +kernel))
      (not_mem_typePart (by decide) (by decide))
  | .fn, (_, _, _), hd, _, rfl =>
    List.not_mem_append (hd.1.not_mem (by decide) (by decide +kernel))
      (List.not_mem_append (by decide)
        (List.not_mem_append (not_mem_parameters hd.2.1 (by decide))
          (List.not_mem_append (by decide) (not_mem_typePart (by decide) (by decide)))))
  | .unary, _, _, _, rfl => by decide
  | .vec, _, _, _, h | .index, _, _, _, h | .when, _, _, _, h
  | .yes, _, _, _, h | .no, _, _, _, h | .loop, _, _, _, h | .stop, _, _, _, h
  | .ret, _, _, _, h | .exit, _, _, _, h => nomatch h

end Heading

theorem Heading.mem_all (h : Heading) : h ∈ all := by
  cases h <;> decide

theorem Heading.word_injective {h h' : Heading} (heq : h.word = h'.word) : h = h' := by
  have hall : ∀ h ∈ all, ∀ h' ∈ all, h.word = h'.word → h = h' := by decide +kernel
  exact hall h h.mem_all h' h'.mem_all heq

theorem Heading.word_apart (h : Heading) : h.word ≠ [] ∧ 32 ∉ h.word ∧ 10 ∉ h.word := by
  cases h <;> decide

/-- A line of an outline without its depth. -/
structure Label where
  heading : Heading
  detail : heading.Detail

namespace Label

/-- What the line says besides its word is in order. -/
def Legible (l : Label) : Prop := l.heading.Legible l.detail

/-- The line as it is written. -/
def render (l : Label) : Bytes := l.heading.word ++ behind (l.heading.said l.detail)
where
  /-- What stands behind the word. -/
  behind : Option Bytes → Bytes
    | none => []
    | some t => utf8 " " ++ t

theorem head_behind {t : Option Bytes} : ∀ c ∈ (render.behind t).head?, c = 32 := by
  cases t with
  | none => nofun
  | some t =>
    rintro c ⟨⟩
    rfl

theorem behind_injective {t t' : Option Bytes} (h : render.behind t = render.behind t') :
    t = t' := by
  cases t with
  | none =>
    cases t' with
    | none => rfl
    | some t' => cases h
  | some t =>
    cases t' with
    | none => cases h
    | some t' => exact congrArg some (List.append_cancel_left h)

/-- Lines that look alike are the same. -/
theorem render_injective {l l' : Label} (hl : l.Legible) (hl' : l'.Legible)
    (h : l.render = l'.render) : l = l' := by
  obtain ⟨heading, detail⟩ := l
  obtain ⟨heading', detail'⟩ := l'
  -- A word ends at the space behind it or with the line, and then tells which details there are.
  obtain ⟨hword, hbehind⟩ := before_injective heading.word_apart.2.1 heading'.word_apart.2.1
    head_behind head_behind h
  cases Heading.word_injective hword
  have hdetail : detail = detail' := Heading.said_injective hl hl' (behind_injective hbehind)
  rw [hdetail]

theorem lineFeed_not_mem_render {l : Label} (hl : l.Legible) : 10 ∉ l.render := by
  refine List.not_mem_append l.heading.word_apart.2.2 ?_
  have hsaid := Heading.lineFeed_not_mem_said hl
  cases ht : l.heading.said l.detail with
  | none => exact List.not_mem_nil
  | some t => exact List.not_mem_append (by decide) (hsaid t ht)

/-- A line begins with its word and not with a space. -/
theorem head_render (l : Label) : ∃ b t, l.render = b :: t ∧ b ≠ 32 := by
  obtain ⟨hne, hspace, -⟩ := l.heading.word_apart
  obtain ⟨b, t, hword⟩ := List.exists_cons_of_ne_nil hne
  refine ⟨b, t ++ render.behind (l.heading.said l.detail), ?_, fun hb => hspace ?_⟩
  · rw [render, hword, List.cons_append]
  · rw [hword, hb]
    exact List.mem_cons_self

end Label
end Scriptlet
