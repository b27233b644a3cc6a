/-!
# Keywords

The words that mark feeds, entries and their properties in a page, the attribute that carries each,
and how often a property may occur in an entry.

* `Property` is a property of an entry; `Property.all` gives the order in which they are looked for.
* `entryKeywords` are the keywords of properties, `allKeywords` those of containers as well.
* `attributeOf` is the attribute that carries a keyword.
-/

namespace HAtom

/-- How often a property may occur in an entry. -/
inductive Cardinality
  | exactlyOne
  | atMostOne
  | any
  deriving DecidableEq, Repr

/-- The properties of an entry that hold a date. -/
inductive DateProperty
  | updated
  | published
  deriving DecidableEq, Repr

/-- The properties of an entry. -/
inductive Property
  | title
  | summary
  | content
  | date (which : DateProperty)
  | author
  | bookmark
  | tag
  | key
  deriving DecidableEq, Repr

/-- The keyword of a property that holds a date. -/
def DateProperty.keyword : DateProperty → String
  | updated => "updated"
  | published => "published"

/-- The attribute that carries a keyword: links carry theirs in `rel`. -/
def attributeOf (keyword : String) : String :=
  if keyword == "bookmark" || keyword == "tag" then "rel" else "class"

namespace Property

/-- The properties in the order in which they are looked for. -/
def all : List Property :=
  [title, summary, content, date .updated, date .published, author, bookmark, tag, key]

/-- The keyword of a property. -/
def keyword : Property → String
  | title => "entry-title"
  | summary => "entry-summary"
  | content => "entry-content"
  | date which => which.keyword
  | author => "author"
  | bookmark => "bookmark"
  | tag => "tag"
  | key => "entry-key"

/-- The attribute that carries the keyword of a property. -/
def carrier (p : Property) : String := attributeOf p.keyword

/-- How often a property may occur in an entry. -/
def cardinality : Property → Cardinality
  | title => .exactlyOne
  | date _ => .atMostOne
  | bookmark => .atMostOne
  | _ => .any

end Property

/-- The keyword of a feed. -/
def feedKeyword : String := "hfeed"

/-- The keyword of an entry. -/
def entryKeyword : String := "hentry"

/-- The keyword of a key of a feed. -/
def feedKeyKeyword : String := "feed-key"

/-- The keywords that belong inside an entry. -/
def entryKeywords : List String := Property.all.map Property.keyword

/-- The keywords that belong inside an entry, and those of the containers and of feed keys. -/
def allKeywords : List String := entryKeywords ++ [feedKeyword, feedKeyKeyword, entryKeyword]

end HAtom
