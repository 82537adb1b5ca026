import BlockScript.Pass.Template

/-! # Sources of helpers

The functions that generated code shares.
-/

namespace BlockScript

namespace Snippet

/-- The first position of an item; one before the first when there is none. -/
def firstIndex (oneBased : Bool) : Template :=
  .ofLines
    ["def $function_name(my_list, elem):",
      "    try:",
      if oneBased then "        index = my_list.index(elem) + 1"
      else "        index = my_list.index(elem)",
      "    except ValueError:",
      if oneBased then "        index = 0" else "        index = -1",
      "    return index"]

/-- The last position of an item; one before the first when there is none. -/
def lastIndex (oneBased : Bool) : Template :=
  .ofLines
    ["def $function_name(my_list, elem):",
      "    try:",
      if oneBased then "        index = len(my_list) - my_list[::-1].index(elem)"
      else "        index = len(my_list) - my_list[::-1].index(elem) - 1",
      "    except ValueError:",
      if oneBased then "        index = 0" else "        index = -1",
      "    return index"]

/-- Takes an item out at random. -/
def removeRandomItem : Template :=
  .ofLines
    ["def $function_name(my_list):",
      "    x = int(random.random() * len(my_list))",
      "    return my_list.pop(x)"]

/-- Sorts a copy of a list. -/
def sort : Template :=
  .ofLines
    ["def $function_name(my_list, type, reverse):",
      "    def try_float(s):",
      "        try:",
      "            return float(s)",
      "        except (TypeError, ValueError):",
      "            return 0",
      "    key_funcs = \x7b",
      "        \"NUMERIC\": try_float,",
      "        \"TEXT\": str,",
      "        \"IGNORE_CASE\": lambda s: str(s).lower()",
      "    \x7d",
      "    key_func = key_funcs[type]",
      "    list_cpy = list(my_list)",
      "    return sorted(list_cpy, key=key_func, reverse=reverse)"]

/-- Picks a letter at random. -/
def randomLetter : Template :=
  .ofLines
    ["def $function_name(text):",
      "    x = int(random.random() * len(text))",
      "    return text[x]"]

end Snippet

end BlockScript
