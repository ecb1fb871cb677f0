import TinyLisp.Document.Basic

/-!
Tags in their short form: two exclamation marks stand for what the standard tags have in common.
-/

namespace TinyLisp.Document.Tag

/-- What the standard tags begin with. -/
def common : Text := "tag:yaml.org,2002:"

def shorten (t : Text) : Text :=
  if common.isPrefixOf t then "!!" ++ t.drop common.length else t

def null : Text := "!!null"
def bool : Text := "!!bool"
def int : Text := "!!int"
def float : Text := "!!float"
def timestamp : Text := "!!timestamp"
def str : Text := "!!str"
def seq : Text := "!!seq"
def map : Text := "!!map"
def binary : Text := "!!binary"
def merge : Text := "!!merge"

/-- The tag that was given, unless it leaves the choice open. -/
def orDefault (given default : Text) : Text :=
  if given = [] ∨ given = ("!" : Text) then default else shorten given

end TinyLisp.Document.Tag
