import HAtom.Keyword

/-!
# Problems

What can be wrong with the structure of a page, as causes; `Problem.message` is the sentence that a
report shows. A `Finding` is a problem at a node.
-/

namespace HAtom

/-- The two kinds of keys. -/
inductive KeyKind
  | feed
  | entry
  deriving DecidableEq, Repr

namespace KeyKind

/-- The keyword of a kind of key. -/
def keyword : KeyKind → String
  | feed => feedKeyKeyword
  | entry => Property.key.keyword

/-- The keyword of the container in which keys of this kind are unique. -/
def container : KeyKind → String
  | feed => feedKeyword
  | entry => entryKeyword

end KeyKind

/-- What is wrong at a node of a page. -/
inductive Problem
  /-- A keyword lies inside a node with the same keyword. -/
  | nested (keyword : String)
  /-- A feed has no entry. -/
  | emptyFeed
  /-- A key has no value. -/
  | blankKey (kind : KeyKind)
  /-- A key has the value of another before it. -/
  | duplicateKey (kind : KeyKind) (value : String)
  /-- An entry lacks a property that it must have. -/
  | missing (property : Property)
  /-- A property occurs again that may occur once. -/
  | repeated (property : Property)
  /-- An entry has neither content nor a summary. -/
  | noContent
  /-- A link has no target. -/
  | blankLink (keyword : String)
  /-- A date is empty. -/
  | emptyDate (which : DateProperty)
  /-- A date is not written as one. -/
  | badDate (which : DateProperty) (value : String)
  /-- An author has no card. -/
  | authorWithoutCard
  /-- A card has no name. -/
  | cardWithoutName
  /-- A card has another name. -/
  | repeatedName
  /-- A link to an address is not a mail link. -/
  | notMail
  /-- An attribute carries a keyword outside the container where it belongs. -/
  | misplaced (keyword name value : String)
  /-- What the host of the rules has to say. -/
  | remark (message : String)
  deriving DecidableEq, Repr

/-- The sentence that a report shows. -/
def Problem.message : Problem → String
  | nested keyword =>
    keyword ++ " keyword cannot be contained inside another hAtom node of the same level"
  | emptyFeed => "hfeed does not contain any hentry"
  | blankKey kind => kind.keyword ++ " keyword requires a non-empty title attribute"
  | duplicateKey kind value =>
    "Duplicate " ++ kind.keyword ++ " value " ++ value ++ " inside the same " ++ kind.container
  | missing property =>
    "hentry must contain exactly one " ++ property.keyword ++ ", none found"
  | repeated property =>
    property.keyword ++ " keyword found more than once inside the same hentry"
  | noContent => "hentry must contain at least one entry-content or entry-summary"
  | blankLink keyword => keyword ++ " keyword requires a non-empty href attribute"
  | emptyDate which => which.keyword ++ " keyword has an empty date value"
  | badDate which value =>
    which.keyword ++ " keyword value " ++ value ++ " is not a valid ISO 8601 date"
  | authorWithoutCard => "author keyword must be placed on a vcard or contain one"
  | cardWithoutName => "hCard must contain an fn property"
  | repeatedName => "fn property found more than once inside the same hCard"
  | notMail => "email property on a link must use a mailto: href"
  | misplaced _ name value =>
    "Attribute " ++ name ++ " with value " ++ value ++
      " is in invalid position. \nPlease check that node is inside its regular parent node"
  | remark message => message

/-- A problem and the label of the node where it is. -/
structure Finding where
  problem : Problem
  label : Nat
  deriving DecidableEq, Repr

end HAtom
