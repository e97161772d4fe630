import RankMetric.Declaration

/-!
# Built-in quantities

The quantities that every description can use. Their values come from the search engine that the
generated code is linked with. Three of them speak of a term and are seen by `decode` alone.

`Tables.withBuiltins` are the tables that every compilation starts from.
-/

namespace RankMetric

/-- A built-in quantity as it is declared. -/
structure Builtin where
  declaration : Text
  level : Level := .constant
  /-- Whether only `decode` can see it. -/
  decodeOnly : Bool := false
  attributes : Attributes
  deriving DecidableEq, Repr

namespace Builtin

/-- The scopes that a built-in is declared in. -/
def scopes (b : Builtin) : List Scope :=
  if b.decodeOnly then [.routine .decode] else [.routine .decode, .routine .post]

/-- A quantity that is the same for the whole collection. -/
def constant (declaration macroText doc : String) : Builtin where
  declaration := declaration.toList
  attributes := { macroText := macroText.toList, doc := doc.toList }

/-- A quantity of a term, which only `decode` can see. -/
def ofTerm (declaration macroText doc : String) (level : Level := .constant) : Builtin :=
  { constant declaration macroText doc with level := level, decodeOnly := true }

/-- An average over the collection, which a call of the engine named `function` fills in. -/
def average (name function doc : String) : Builtin where
  declaration := "double ".toList ++ name.toList ++ ";".toList
  attributes := {
    fallbackInit :=
      "if (".toList ++ function.toList ++ "(idx->map, &".toList ++ name.toList ++
        ") != DOCMAP_OK) \x7b\n    return SEARCH_EINVAL;\n\x7d".toList
    doc := doc.toList }

/-- A quantity of a document, which is read from the cache with the given mark. The given average
stands in for it. -/
def perDocument (declaration macroText cache average doc : String) : Builtin where
  declaration := declaration.toList
  level := .perDocument
  attributes := {
    macroText := macroText.toList
    prerequisite :=
      "if (docmap_cache(idx->map, docmap_get_cache(idx->map) | ".toList ++ cache.toList ++
        ") != DOCMAP_OK) return SEARCH_EINVAL;".toList
    contribution := "((float) ".toList ++ average.toList ++ ")".toList
    doc := doc.toList }

/-- All built-in quantities, in the order of their declaration. -/
def all : List Builtin := [
  ofTerm "const unsigned int f_t;" "query->term[qterm].f_t"
    "number of documents in collection term occurs in",
  ofTerm "const unsigned int F_t;" "query->term[qterm].F_t"
    "number of times term occurs in collection",
  ofTerm "const unsigned int f_dt;" ""
    "number of times term occurs in current document" .perTerm,
  { constant "float accumulator;" "acc->acc.weight" "accumulated score of document" with
    level := .perDocument },
  constant "const unsigned int dterms = iobtree_size(idx->vocab);" ""
    "number of distinct terms in the collection",
  constant
    "const double terms = ((double) UINT_MAX) * idx->stats.terms_high + idx->stats.terms_low;" ""
    "number of terms in the collection",
  constant "const unsigned int N = docmap_entries(idx->map);" ""
    "number of documents in the collection",
  average "avg_D_bytes" "docmap_avg_bytes" "average bytes per document in the collection",
  average "avg_D_terms" "docmap_avg_words" "average terms per document in the collection",
  average "avg_D_dterms" "docmap_avg_distinct_words"
    "average distinct terms per document in the collection",
  average "avg_D_weight" "docmap_avg_weight"
    "average cosine weight per document in the collection",
  constant "const unsigned int Q_terms = search_qterms(query);" "" "number of terms in the query",
  constant "const unsigned int Q_dterms;" "query->terms" "number of distinct terms in the query",
  constant "const float Q_weight = search_qweight(query);" "" "cosine weight of query",
  perDocument "const unsigned int D_bytes;" "docmap_get_bytes_cached(idx->map, acc->acc.docno)"
    "DOCMAP_CACHE_BYTES" "avg_D_bytes" "number of bytes in the current document",
  perDocument "const unsigned int D_terms;" "DOCMAP_GET_WORDS(idx->map, acc->acc.docno)"
    "DOCMAP_CACHE_WORDS" "avg_D_terms" "number of terms in the current document",
  perDocument "const unsigned int D_dterms;" "DOCMAP_GET_DISTINCT_WORDS(idx->map, acc->acc.docno)"
    "DOCMAP_CACHE_DISTINCT_WORDS" "avg_D_dterms"
    "number of distinct terms in the current document",
  perDocument "const float D_weight;" "DOCMAP_GET_WEIGHT(idx->map, acc->acc.docno)"
    "DOCMAP_CACHE_WEIGHT" "avg_D_weight" "cosine weight of the current document",
  constant "const unsigned int f_qt;" "query->term[qterm].f_qt"
    "number of times the current term occurred in the query"]

end Builtin

namespace Tables

/-- Declare one built-in. -/
def declareBuiltin (t : Tables) (file : Text) (b : Builtin) : Except Halted Tables :=
  match t.declare file b.scopes b.declaration builtinLine b.level fun _ ↦ b.attributes with
  | .ok (_, t') => .ok t'
  | .error e => .error ⟨e, t⟩

/-- Declare every built-in, up to the first that fails. The label `file` goes into the error. -/
def declareBuiltins (t : Tables) (file : Text) : Except Halted Tables :=
  Builtin.all.foldlM (fun t b ↦ t.declareBuiltin file b) t

/-- The tables that were reached, also if something has failed there. -/
def reached : Except Halted Tables → Tables
  | .ok t => t
  | .error h => h.tables

/-- Tables that hold the built-ins and nothing else. -/
def withBuiltins : Tables :=
  reached (empty.declareBuiltins [])

end Tables

/-- The names and descriptions of the built-ins that a routine can see, in the order of names. -/
def builtinDocs (r : Routine) : List (Name × Text) :=
  (Tables.withBuiltins.body r).quantities.toList.map fun q ↦ (q.name, q.doc)

end RankMetric
