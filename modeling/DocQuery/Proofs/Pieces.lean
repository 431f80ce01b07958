import DocQuery.Proofs.Places

/-! A text and its placeholders.

The text of tokens is pieces: text that is the same whatever the placeholders look like, and the
places that placeholders are written for. `render_eq_fill`: with the dialect's placeholders the
pieces are the text. `placesIn_pieces`: they have the places that the tokens name, in order.
`render_raise`: moving every place further on is writing the placeholders that come later. -/
namespace DocQuery.Sql

open DocQuery.Symbol Placed

/-! ### Pieces of a text -/

inductive Piece where
  | text (s : String)
  /-- Here the placeholder of the place is written. -/
  | place (n : Nat)

def Piece.write (placeholder : Nat → String) : Piece → String
  | text s => s
  | place n => placeholder n

def Piece.place? : Piece → Option Nat
  | text _ => none
  | place n => some n

/-- The text of the pieces with these placeholders. -/
def fill (placeholder : Nat → String) (pieces : List Piece) : String :=
  String.join (pieces.map (Piece.write placeholder))

def placesIn (pieces : List Piece) : List Nat :=
  pieces.filterMap Piece.place?

section Pieces

variable (d : Dialect)

def Side.pieces : Side → List Piece
  | bound place => [.place place]
  | column c => [.text (c.text d)]

def foldedPieces (fold : Bool) (pieces : List Piece) : List Piece :=
  if fold then .text (d.lowerFn ++ "(") :: (pieces ++ [.text ")"]) else pieces

def Side.elementPieces : Side → List Piece
  | bound place => [.text "ANY(ARRAY[", .place place, .text "])"]
  | column c => [.text ("ANY(" ++ c.text d ++ ")")]

def inParensPieces (pieces : List Piece) : List Piece :=
  .text "(" :: (pieces ++ [.text ")"])

def Term.pieces : Term → List Piece
  | nullTest negated c => [.text ((nullTest negated c).text d)]
  | compare symbol fold c other =>
    .text (folded d fold (c.text d) ++ " " ++ symbol ++ " ") :: foldedPieces d fold (other.pieces d)
  | member negated fold c other =>
    let test := .text (folded d fold (c.text d) ++ " = ") :: other.elementPieces d
    if negated then .text "NOT " :: inParensPieces test else test
  | range negated parens c low high =>
    let test := [.text (c.text d ++ (if negated then " NOT BETWEEN " else " BETWEEN ")), .place low,
      .text " AND ", .place high]
    if parens then inParensPieces test else test
  | allBits c mask again =>
    inParensPieces (.text (c.text d ++ " & ") :: mask.pieces d) ++ .text " = " :: again.pieces d
  | someBits c mask => inParensPieces (.text (c.text d ++ " & ") :: mask.pieces d) ++ [.text " <> 0"]
  | never => [.text d.falseLiteral]

def tokenPieces : Token → List Piece
  | .atom t => t.pieces d
  | s => [.text (Token.text d s)]

/-- The pieces of a text. -/
def pieces (tokens : List Token) : List Piece :=
  tokens.flatMap (tokenPieces d)

variable {d}

theorem fill_append (placeholder : Nat → String) (ps qs : List Piece) :
    fill placeholder (ps ++ qs) = fill placeholder ps ++ fill placeholder qs := by
  rw [fill, List.map_append, String.join_append]
  rfl

theorem fill_cons (placeholder : Nat → String) (p : Piece) (ps : List Piece) :
    fill placeholder (p :: ps) = p.write placeholder ++ fill placeholder ps := by
  rw [fill, List.map_cons, String.join_cons]
  rfl

theorem fill_nil (placeholder : Nat → String) : fill placeholder [] = "" := rfl

theorem fill_side (s : Side) : fill d.placeholder (s.pieces d) = s.text d := by
  cases s <;> simp [Side.pieces, Side.text, fill_cons, fill_nil, Piece.write]

theorem fill_elements (s : Side) : fill d.placeholder (s.elementPieces d) = s.elements d := by
  cases s <;> simp [Side.elementPieces, Side.elements, fill_cons, fill_nil, Piece.write, String.append_assoc]

theorem fill_folded (fold : Bool) (ps : List Piece) :
    fill d.placeholder (foldedPieces d fold ps) = folded d fold (fill d.placeholder ps) := by
  cases fold <;> simp [foldedPieces, folded, fill_cons, fill_nil, fill_append, Piece.write, String.append_assoc]

theorem fill_inParens (placeholder : Nat → String) (ps : List Piece) :
    fill placeholder (inParensPieces ps) = inParens (fill placeholder ps) := by
  simp [inParensPieces, inParens, fill_cons, fill_nil, fill_append, Piece.write, String.append_assoc]

theorem fill_term (t : Term) : fill d.placeholder (t.pieces d) = t.text d := by
  cases t with
  | nullTest negated c => simp [Term.pieces, fill_cons, fill_nil, Piece.write]
  | compare symbol fold c other =>
    simp [Term.pieces, Term.text, fill_cons, fill_folded, fill_side, Piece.write, String.append_assoc]
  | member negated fold c other =>
    cases negated <;>
      simp [Term.pieces, Term.text, fill_cons, fill_inParens, fill_elements, Piece.write, String.append_assoc]
  | range negated parens c low high =>
    cases parens <;>
      simp [Term.pieces, Term.text, fill_cons, fill_nil, fill_inParens, Piece.write, String.append_assoc]
  | allBits c mask again =>
    simp [Term.pieces, Term.text, fill_cons, fill_append, fill_inParens, fill_side, Piece.write,
      String.append_assoc]
  | someBits c mask =>
    simp [Term.pieces, Term.text, fill_cons, fill_nil, fill_append, fill_inParens, fill_side, Piece.write,
      String.append_assoc]
  | never => simp [Term.pieces, Term.text, fill_cons, fill_nil, Piece.write]

theorem fill_token (s : Token) : fill d.placeholder (tokenPieces d s) = Token.text d s := by
  cases s with
  | atom t => exact fill_term t
  | _ => simp [tokenPieces, fill_cons, fill_nil, Piece.write]

/-- A text is its pieces with the dialect's placeholders. -/
theorem render_eq_fill (tokens : List Token) :
    render d tokens = fill d.placeholder (pieces d tokens) := by
  induction tokens with
  | nil => rfl
  | cons s rest ih =>
    rw [render, List.map_cons, String.join_cons]
    show Token.text d s ++ render d rest = _
    rw [ih, ← fill_token s, ← fill_append]
    rfl

/-- The pieces do not depend on what the placeholders look like. -/
theorem pieces_withPlaceholder (placeholder : Nat → String) (tokens : List Token) :
    pieces { d with placeholder := placeholder } tokens = pieces d tokens := by
  refine List.flatMap_congr fun s _ => ?_
  cases s with
  | atom t => cases t <;> rfl
  | _ => rfl

/-! ### Places in the pieces -/

theorem placesIn_append (ps qs : List Piece) : placesIn (ps ++ qs) = placesIn ps ++ placesIn qs :=
  List.filterMap_append

theorem placesIn_text (s : String) (ps : List Piece) : placesIn (.text s :: ps) = placesIn ps := rfl

theorem placesIn_side (s : Side) : placesIn (s.pieces d) = s.places := by
  cases s <;> rfl

theorem placesIn_elements (s : Side) : placesIn (s.elementPieces d) = s.places := by
  cases s <;> rfl

theorem placesIn_inParens (ps : List Piece) : placesIn (inParensPieces ps) = placesIn ps := by
  rw [inParensPieces, placesIn_text, placesIn_append]
  exact List.append_nil _

theorem placesIn_folded (fold : Bool) (ps : List Piece) : placesIn (foldedPieces d fold ps) = placesIn ps := by
  cases fold with
  | false => rfl
  | true =>
    rw [foldedPieces, if_pos rfl, placesIn_text, placesIn_append]
    exact List.append_nil _

theorem placesIn_term (t : Term) : placesIn (t.pieces d) = t.places := by
  cases t with
  | compare symbol fold c other => rw [Term.pieces, placesIn_text, placesIn_folded, placesIn_side]; rfl
  | member negated fold c other =>
    cases negated with
    | false => exact placesIn_elements other
    | true => exact (placesIn_inParens _).trans (placesIn_elements other)
  | range negated parens c low high => cases parens <;> rfl
  | allBits c mask again =>
    rw [Term.pieces, placesIn_append, placesIn_inParens, placesIn_text, placesIn_text, placesIn_side, placesIn_side]
    rfl
  | someBits c mask =>
    rw [Term.pieces, placesIn_append, placesIn_inParens, placesIn_text, placesIn_side]
    exact List.append_nil _
  | _ => rfl

/-- The pieces name the places that the tokens do. -/
theorem placesIn_pieces (tokens : List Token) : placesIn (pieces d tokens) = places tokens := by
  induction tokens with
  | nil => rfl
  | cons s rest ih =>
    have hs : placesIn (tokenPieces d s) = places s := by
      cases s with
      | atom t => exact placesIn_term t
      | _ => rfl
    rw [pieces, List.flatMap_cons, placesIn_append, hs, places_cons]
    exact congrArg (places s ++ ·) ih

/-- The dialect after so many bound values. -/
def Dialect.after (d : Dialect) (k : Nat) : Dialect :=
  { d with placeholder := fun place => d.placeholder (place + k) }

/-- Tokens with every place further on are written as the tokens are with the placeholders that
come so much later. -/
theorem render_raise (k : Nat) (tokens : List Token) :
    render d (raise k tokens) = render (d.after k) tokens := by
  have htoken : ∀ s : Token, Token.text d (raise k s) = Token.text (d.after k) s := by
    intro s
    cases s with
    | atom t =>
      have hside : ∀ s : Side, (s.raise k).text d = s.text (d.after k) := fun s => by cases s <;> rfl
      have helements : ∀ s : Side, (s.raise k).elements d = s.elements (d.after k) :=
        fun s => by cases s <;> rfl
      show (t.raise k).text d = t.text (d.after k)
      cases t <;> simp only [Term.raise, Term.text, hside, helements] <;> rfl
    | _ => rfl
  show String.join ((tokens.map (raise k)).map (Token.text d)) = String.join (tokens.map (Token.text (d.after k)))
  rw [List.map_map]
  exact congrArg String.join (List.map_congr_left fun s _ => htoken s)

end Pieces

end DocQuery.Sql
